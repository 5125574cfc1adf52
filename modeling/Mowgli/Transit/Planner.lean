import Mowgli.Transit.Geometry

/-!
# Planner — transit over authorized ground

`AuthorizedTransitPlanner`: the geometry it is sent, the anchors it connects the endpoints to, and
the plan around the search and the smoother of Smac. Both are given: what they return is theirs,
and **the planner checks it again**. So are the cancel checker with the clock (`check`), the
costmap it copies, and the geometry messages that come while it plans.
-/

namespace Mowgli
namespace Transit

abbrev Str := List Char

variable {D : Type} (d : Format D)

/-! ## The costmap -/

/-- `Costmap2D`. -/
structure Costmap (D : Type) where
  sizeX : Nat
  sizeY : Nat
  resolution : D
  originX : D
  originY : D
  cost : Nat → Nat → UInt8

namespace Costmap

variable (m : Costmap D)

def worldToMap (p : Point D) : Option (Nat × Nat) :=
  if d.lt p.x m.originX || d.lt p.y m.originY then none
  else
    let x := (d.toInt (d.div (d.sub p.x m.originX) m.resolution)).toNat
    let y := (d.toInt (d.div (d.sub p.y m.originY) m.resolution)).toNat
    if x < m.sizeX ∧ y < m.sizeY then some (x, y) else none

def mapToWorld (x y : Nat) : Point D :=
  ⟨d.add m.originX (d.mul (d.add (d.lit x) (d.lit (1 / 2))) m.resolution),
    d.add m.originY (d.mul (d.add (d.lit y) (d.lit (1 / 2))) m.resolution)⟩

def lethal (x y : Nat) : Bool := decide (253 ≤ m.cost x y)

/-- The grid lines that a coordinate crosses, as parts of a segment. -/
def gridCuts (start stop origin : D) : List D :=
  if d.eq start stop then []
  else
    let line (x : D) : Int := d.toInt (d.floor (d.div (d.sub x origin) m.resolution))
    let first := line (d.min start stop)
    let last := line (d.max start stop)
    (List.range (last - first).toNat).map fun i =>
      d.div
        (d.sub (d.add origin (d.mul (d.lit ((first + 1 + i : Int) : ℚ)) m.resolution)) start)
        (d.sub stop start)

/-- A point in a clear cell, and away from lethal ones across a grid line it lies on. -/
def pointClear (p : Point D) : Bool :=
  match m.worldToMap d p with
  | none => false
  | some (x, y) =>
    let gx := d.div (d.sub p.x m.originX) m.resolution
    let gy := d.div (d.sub p.y m.originY) m.resolution
    let onX := d.le (d.abs (d.sub gx (d.round gx))) (kEpsilon d)
    let onY := d.le (d.abs (d.sub gy (d.round gy))) (kEpsilon d)
    !m.lethal x y &&
      !(onX && decide (0 < x) && m.lethal (x - 1) y) &&
      !(onY && decide (0 < y) && m.lethal x (y - 1)) &&
      !(onX && onY && decide (0 < x) && decide (0 < y) && m.lethal (x - 1) (y - 1))

def costSegmentClear (a b : Point D) : Bool :=
  let ts := sorted d
    ([d.lit 0, d.lit 1] ++ m.gridCuts d a.x b.x m.originX ++ m.gridCuts d a.y b.y m.originY)
  (ts ++ (ts.zip ts.tail).map fun t => half d t.1 t.2).all fun t =>
    m.pointClear d (interpolate d a b t)

def grid : RasterGrid D := ⟨m.sizeX, m.sizeY, m.resolution, m.originX, m.originY⟩

end Costmap

/-! ## The geometry -/

inductive MarkerNs where
  | area
  | obstacle
  | dockBody
  | dockCorridor
  | other
  deriving DecidableEq

structure Marker (D : Type) where
  frameId : Str
  /-- `action == ADD`. -/
  add : Bool
  ns : MarkerNs
  points : Ring D
  scaleX : D

/-- What `onGeometry` has read so far. -/
structure Reading (D : Type) where
  next : Geometry D
  valid : Bool
  dockBodies : List (Ring D) := []
  dockCorridors : List (Ring D) := []

def Reading.push (r : Reading D) (m : Marker D) : Reading D :=
  let r := { r with
    valid := r.valid && m.points.all fun p => d.isFinite p.x && d.isFinite p.y
    dockBodies := if m.ns = MarkerNs.dockBody then r.dockBodies ++ [m.points] else r.dockBodies
    dockCorridors :=
      if m.ns = MarkerNs.dockCorridor then r.dockCorridors ++ [m.points] else r.dockCorridors }
  let block (exempt : Bool) : Reading D :=
    { r with
      valid := r.valid && d.isFinite m.scaleX && d.le (d.lit 0) m.scaleX
      next := { r.next with
        blockedMargins := r.next.blockedMargins ++ [m.scaleX]
        startExempt := r.next.startExempt ++ [exempt]
        blocked := r.next.blocked ++ [m.points] } }
  match m.ns with
  | .area => { r with next := { r.next with allowed := r.next.allowed ++ [m.points] } }
  | .dockCorridor => { r with next := { r.next with allowed := r.next.allowed ++ [m.points] } }
  | .obstacle => block false
  | .dockBody => block true
  | .other => { r with valid := false }

/-- The markers up to the first one that is malformed. -/
def readMarkers (globalFrame : Str) (r : Reading D) : List (Marker D) → Reading D
  | [] => r
  | m :: markers =>
    if m.frameId ≠ globalFrame ∨ m.points.length < 3 ∨ m.add = false then { r with valid := false }
    else readMarkers globalFrame (r.push d m) markers

/-- What `geometry_mutex_` guards. -/
structure GeometryStore (D : Type) where
  geometry : Geometry D
  geometryValid : Bool
  geometryRevision : UInt64

namespace GeometryStore

variable (globalFrame : Str) (σ : GeometryStore D)

def onGeometry (markers : List (Marker D)) : GeometryStore D :=
  let r := readMarkers d globalFrame
    { next := { obstacleMargin := d.lit 0 }, valid := !markers.isEmpty } markers
  let next :=
    match r.dockBodies, r.dockCorridors with
    | [body], [corridor] => { r.next with dock := dockFrame d body corridor }
    | _, _ => r.next
  { geometry := next
    geometryValid := r.valid && !next.allowed.isEmpty
    geometryRevision := σ.geometryRevision + 1 }

def cleanup : GeometryStore D :=
  { geometry := { obstacleMargin := d.lit 0 }
    geometryValid := false
    geometryRevision := σ.geometryRevision + 1 }

inductive Update (D : Type) where
  | onGeometry (markers : List (Marker D))
  | cleanup

def update (σ : GeometryStore D) : Update D → GeometryStore D
  | .onGeometry markers => σ.onGeometry d globalFrame markers
  | .cleanup => σ.cleanup d

end GeometryStore

/-! ## The anchors -/

inductive PlannerException where
  | PlannerCancelled (what : String)
  | PlannerTimedOut (what : String)
  | NoValidPathCouldBeFound (what : String)
  | StartOccupied (what : String)
  | GoalOccupied (what : String)
  /-- What Smac throws by itself. -/
  | other (what : String)
  deriving DecidableEq

abbrev Planning := Except PlannerException

/-- `if (condition) throw`. -/
def refuse (condition : Bool) (e : PlannerException) : Planning Unit :=
  if condition then .error e else .ok ()

def kTerminalOutsideLimit : D := d.lit (15 / 100)
def kAnchorLimit : D := d.lit (30 / 100)
def kDockExitLimit : D := d.lit 1
def kStationClearance : D := d.lit (10 / 100)

variable (m : Costmap D)

/-- The cells around a cell, by rows. -/
def cellsAround (mx my : Nat) (limit : D) : List (Nat × Nat) :=
  let radius := d.toInt (d.ceil (d.div limit m.resolution))
  let around (i size : Nat) : List Nat := (List.range size).filter fun j =>
    decide ((i : Int) - radius ≤ j) && decide ((j : Int) ≤ i + radius)
  (around my m.sizeY).flatMap fun y => (around mx m.sizeX).map fun x => (x, y)

def isNearer (best : Option (D × Point D)) (dist : D) : Bool :=
  match best with
  | none => true
  | some b => d.lt dist b.1

/-- The nearest acceptable cell so far; none is the infinite `best`. -/
def nearer (p : Point D) (limit : D) (accepts : Point D → Bool)
    (best : Option (D × Point D)) (cell : Nat × Nat) : Option (D × Point D) :=
  let q := m.mapToWorld d cell.1 cell.2
  let dist := distance d p q
  if isNearer d best dist && d.le dist limit && !m.lethal cell.1 cell.2 && accepts q then
    some (dist, q)
  else best

structure PoseStamped (D : Type) where
  frameId : Str
  point : Point D
  deriving DecidableEq

def anchor (endpoint : PoseStamped D) (g : Geometry D) : Planning (PoseStamped D) := do
  let p := endpoint.point
  match m.worldToMap d p with
  | none => throw (.NoValidPathCouldBeFound "Transit endpoint outside costmap")
  | some (mx, my) =>
    let accepts (q : Point D) : Bool :=
      g.authorized d q && g.terminal d p q (kTerminalOutsideLimit d) && m.costSegmentClear d p q
    match (cellsAround d m mx my (kAnchorLimit d)).foldl (nearer d m p (kAnchorLimit d) accepts)
        none with
    | none => throw (.NoValidPathCouldBeFound "No bounded authorized terminal connection")
    | some best => return { endpoint with point := best.2 }

/-- `getRobotFootprint` and `getRobotRadius`. -/
structure Robot (D : Type) where
  footprint : List (Point D)
  radius : D

/-- The front reach of the robot, and the radius it sweeps. -/
def Robot.reach (robot : Robot D) : D × D :=
  let reach := robot.footprint.foldl
    (fun (reach : D × D) vertex =>
      (d.max reach.1 vertex.x, d.max reach.2 (d.hypot vertex.x vertex.y)))
    (d.lit 0, d.lit 0)
  if d.le reach.2 (d.lit 0) then (robot.radius, robot.radius) else reach

def dockExitAnchor (robot : Robot D) (start : PoseStamped D) (g relaxed : Geometry D)
    (check : Planning Unit) : Planning (PoseStamped D) := do
  match g.dock with
  | none => throw (.StartOccupied
      "Transit start inside the dock body, but the dock orientation is unknown")
  | some dock =>
    let p := start.point
    let startLocal := dock.local d p
    let reach := robot.reach d
    refuse
      (!d.isFinite startLocal.x ||
        d.lt (d.sub reach.1 (kStationClearance d)) (d.add startLocal.x reach.2))
      (.StartOccupied
        "Transit start inside the dock body too close to the charging station to pivot out")
    match m.worldToMap d p with
    | none => throw (.StartOccupied "Transit start inside the dock body, outside the costmap")
    | some (mx, my) =>
      check
      -- The exit leg never closes on the station.
      let accepts (q : Point D) : Bool :=
        !d.lt startLocal.x (dock.local d q).x && g.authorized d q && g.clear d q &&
          relaxed.segmentAuthorized d p q && relaxed.segmentClear d p q && m.costSegmentClear d p q
      match (cellsAround d m mx my (kDockExitLimit d)).foldl
          (nearer d m p (kDockExitLimit d) accepts) none with
      | none => throw (.StartOccupied "Transit start inside the dock body without a clear way out")
      | some best => return { start with point := best.2 }

/-! ## The plan -/

abbrev Path (D : Type) := List (PoseStamped D)

def legAccepted (g : Geometry D) (a b : Point D) : Bool :=
  g.segmentAuthorized d a b && g.segmentClear d a b && m.costSegmentClear d a b

/-- Every pose with the one before it, the first one with itself. -/
def pathValid (path : Path D) (g : Geometry D) : Bool :=
  !path.isEmpty &&
    ((path.head?.toList ++ path).zip path).all fun leg =>
      legAccepted d m g leg.1.point leg.2.point

def occupied (endpoint : PoseStamped D) (view : Geometry D) : Bool :=
  !view.clear d endpoint.point ||
    match m.worldToMap d endpoint.point with
    | none => false
    | some (x, y) => m.lethal x y

/-- The search grid: cells whose centres are not authorized are lethal. -/
def authorizedMap (g : Geometry D) : Costmap D :=
  let authorization := rasterAuthorization d g m.grid
  { m with
    cost := fun x y =>
      if x < m.sizeX ∧ y < m.sizeY ∧ authorization x y = false then 254 else m.cost x y }

/-- One pose of the search back on the centre of its cell; all but the last went through the
    `float` origin. -/
def restoreCentre (isLast : Bool) (pose : PoseStamped D) : Planning (PoseStamped D) :=
  let shifted : Point D :=
    if isLast then pose.point
    else
      ⟨d.add pose.point.x (d.sub m.originX (d.throughFloat m.originX)),
        d.add pose.point.y (d.sub m.originY (d.throughFloat m.originY))⟩
  match m.worldToMap d shifted with
  | none => .error (.NoValidPathCouldBeFound "Search path outside the private grid")
  | some (x, y) => .ok { pose with point := m.mapToWorld d x y }

def restoreCentres : Path D → Planning (Path D)
  | [] => .ok []
  | pose :: poses => do
    let pose ← restoreCentre d m poses.isEmpty pose
    let poses ← restoreCentres poses
    return pose :: poses

/-- The places where the plan looks at the cancel checker and at its budget. A loop looks many
times. -/
inductive Phase where
  | start
  | dockExit
  | connectivity
  | authorization
  | smoothing
  | done

/-- What a plan finds outside. -/
structure Outside (D : Type) where
  robot : Robot D
  sharedMap : Costmap D
  check : Phase → Planning Unit
  search : Costmap D → PoseStamped D → PoseStamped D → Planning (Path D)
  smooth : Costmap D → Path D → Planning (Path D)
  /-- The updates of the geometry between its snapshot and the last look at its revision. -/
  updates : List (GeometryStore.Update D)

variable (globalFrame : Str) (o : Outside D) (σ : GeometryStore D)

def startAnchor (start : PoseStamped D) : Planning (PoseStamped D) :=
  if σ.geometry.insideStartExempt d start.point then
    dockExitAnchor d o.sharedMap o.robot start σ.geometry σ.geometry.withoutStartExempt
      (o.check .dockExit)
  else anchor d o.sharedMap start σ.geometry

def goalAnchor (goal : PoseStamped D) : Planning (PoseStamped D) :=
  anchor d o.sharedMap goal σ.geometry

/-- The search between the anchors, back on cell centres and checked. -/
def rawPath (start goal : PoseStamped D) : Planning (Path D) := do
  let privateMap := authorizedMap d o.sharedMap σ.geometry
  let raw ← o.search privateMap start goal
  let raw ← restoreCentres d privateMap raw
  refuse (!pathValid d privateMap raw σ.geometry)
    (.NoValidPathCouldBeFound "Raw search path failed continuous validation")
  refuse (raw.getLast?.any fun back => d.lt (kEpsilon d) (distance d back.point goal.point))
    (.NoValidPathCouldBeFound "Search did not reach the authorized goal anchor")
  return raw

/-- The smoothed path where it is valid, or the raw one. -/
def keptPath (raw : Path D) : Planning (Path D) := do
  let privateMap := authorizedMap d o.sharedMap σ.geometry
  let smoothed ← o.smooth privateMap raw
  return if pathValid d privateMap smoothed σ.geometry then smoothed else raw

def createPlan (start goal : PoseStamped D) (viapoints : Path D) : Planning (Path D) := do
  o.check .start
  refuse (!σ.geometryValid)
    (.NoValidPathCouldBeFound "Transit geometry unavailable or map edit pending")
  refuse (!viapoints.isEmpty) (.NoValidPathCouldBeFound "Transit viapoints are not supported")
  refuse
    (decide (start.frameId ≠ globalFrame) || decide (goal.frameId ≠ globalFrame) ||
      !d.isFinite start.point.x || !d.isFinite start.point.y || !d.isFinite goal.point.x ||
      !d.isFinite goal.point.y)
    (.NoValidPathCouldBeFound "Transit endpoints must be finite in the global frame")
  let view :=
    if σ.geometry.insideStartExempt d start.point then σ.geometry.withoutStartExempt
    else σ.geometry
  refuse (occupied d o.sharedMap start view)
    (.StartOccupied "Transit start occupied by an obstacle")
  refuse (occupied d o.sharedMap goal σ.geometry)
    (.GoalOccupied "Transit goal occupied by an obstacle")
  let startCell ← startAnchor d o σ start
  let goalCell ← goalAnchor d o σ goal
  o.check .connectivity
  refuse (!σ.geometry.boundsMayConnect d startCell.point goalCell.point)
    (.NoValidPathCouldBeFound "Authorized transit polygon bounds are disconnected")
  o.check .authorization
  let raw ← rawPath d o σ startCell goalCell
  o.check .smoothing
  let kept ← keptPath d o σ raw
  let now := o.updates.foldl (GeometryStore.update d globalFrame) σ
  refuse (!now.geometryValid || decide (σ.geometryRevision ≠ now.geometryRevision))
    (.NoValidPathCouldBeFound "Transit map changed during planning")
  o.check .done
  return start :: kept ++ [goal]

end Transit
end Mowgli
