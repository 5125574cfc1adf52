import Mathlib.Algebra.Order.Field.Basic
import Mathlib.Data.Rat.Cast.OfScientific
import Mowgli.Lib.History

/-!
# GoalChecker — when a coverage goal counts as reached

`path_progress_goal_checker.cpp`, over exact numbers. A cursor goes along the plan, by the nearest
pose in a bounded window; the end of the window is accepted only after motion along the path, and
`Boundary` is the evidence gathered for it. A plan that comes again leaves the cursor alone.

An orientation is its `tf2::getYaw`, and a missing distance is infinite.
-/

namespace Mowgli
namespace Nav

variable {K : Type}

structure Point (K : Type) where
  x : K
  y : K

structure Pose (K : Type) where
  position : Point K
  yaw : K

structure Path (K : Type) where
  frameId : String
  poses : List (Point K)

structure Maths (K : Type) where
  hypot : K → K → K
  sqrt : K → K
  cos : K → K
  sin : K → K
  atan2 : K → K → K

structure Params (K : Type) [Field K] where
  progressThreshold : K := 0.95
  xyGoalTolerance : K := 0.20
  yawGoalTolerance : K := 0.30
  fallbackTimeoutS : K := 5
  maxIdxAdvancePerCall : Nat := 10
  shortPathPoses : Nat := 10
  /-- Of the costmap, empty without one. -/
  queryFrame : String := ""
  hasBuffer : Bool := false

structure PathProjection (K : Type) where
  arcM : K
  distanceM : K
  segmentLengthM : K
  tangentX : K
  tangentY : K
  segmentStartX : K
  segmentStartY : K

/-- `pending_progress_boundary_` and the members that go with it. -/
structure Boundary (K : Type) [Field K] where
  index : Option Nat := none
  originOffsetM : Option K := none
  highWaterOffsetM : Option K := none
  originTangentX : K := 0
  originTangentY : K := 0
  forwardMotionM : K := 0
  radiusM : K := 0
  minimumMotionM : K := 0

structure Checker (K : Type) [Field K] where
  pathFrame : String := ""
  pathPoses : List (Point K) := []
  pathArcM : List K := []
  maxReachedIndex : Nat := 0
  pending : Boundary K := {}
  lastProgressQuery : Option (Point K) := none
  lastPathSize : Nat := 0
  lastPathFirst : Point K := ⟨0, 0⟩
  emptyPathFirstCall : Option K := none

/-- A call of `isGoalReached`, and what the clock and the transform buffer say at it. -/
structure Query (K : Type) where
  now : K
  pose : Pose K
  goal : Pose K
  /-- The pose in the frame of the path; `none` when the transform throws. -/
  transformed : Option (Pose K)

variable [Field K] [LinearOrder K]

def kRatioRuleMaxRemainingM : K := 1

def kMinProgressQueryMotionM : K := 0.005

def kBoundaryRecoveryProjectionSlackM : K := 0.02

def kBoundaryRecoveryMinHeadingAlignment : K := 0.9396926207859084

def kBoundaryRecoveryMinMotionAlignment : K := 0.9396926207859084

def kEpsilon : K := 1e-9

/-- `std::clamp` -/
def clamp (v lo hi : K) : K := if v < lo then lo else if hi < v then hi else v

/-- `Boundary` without evidence; its tangent stays. -/
def Boundary.reset (b : Boundary K) : Boundary K :=
  { b with
    index := none
    originOffsetM := none
    highWaterOffsetM := none
    forwardMotionM := 0
    radiusM := 0
    minimumMotionM := 0 }

variable (maths : Maths K) (p : Params K)

/-! ## The path -/

def distance (a b : Point K) : K := maths.hypot (a.x - b.x) (a.y - b.y)

def arcsAfter (arc : K) (a : Point K) : List (Point K) → List K
  | [] => []
  | b :: rest => (arc + distance maths b a) :: arcsAfter (arc + distance maths b a) b rest

def cumulativeArcLength : List (Point K) → List K
  | [] => []
  | a :: rest => 0 :: arcsAfter maths 0 a rest

def poseAt (poses : List (Point K)) (i : Nat) : Point K := poses.getD i ⟨0, 0⟩

def arcAt (arc : List K) (i : Nat) : K := arc.getD i 0

/-- The part of a path between two arc lengths, and whose segments count. -/
structure ArcWindow (K : Type) where
  minArcM : K
  maxArcM : K
  motionX : K
  motionY : K
  requireForwardMotion : Bool

section Project

variable (poses : List (Point K)) (arc : List K) (point : Point K) (w : ArcWindow K)

/-- One round of the loop of `projectToArcWindow`. -/
def projectSegment (best : Option (PathProjection K)) (i : Nat) : Option (PathProjection K) :=
  let segmentLength := arcAt arc (i + 1) - arcAt arc i
  let clippedStart := max (arcAt arc i) w.minArcM
  let clippedEnd := min (arcAt arc (i + 1)) w.maxArcM
  if segmentLength ≤ 0 ∨ clippedEnd < clippedStart then best
  else
    let a := poseAt poses i
    let b := poseAt poses (i + 1)
    let segmentX := b.x - a.x
    let segmentY := b.y - a.y
    let startRatio := (clippedStart - arcAt arc i) / segmentLength
    let endRatio := (clippedEnd - arcAt arc i) / segmentLength
    let startX := a.x + startRatio * segmentX
    let startY := a.y + startRatio * segmentY
    let clippedX := (endRatio - startRatio) * segmentX
    let clippedY := (endRatio - startRatio) * segmentY
    let clippedLengthSq := clippedX * clippedX + clippedY * clippedY
    let projection :=
      if 0 < clippedLengthSq then
        clamp (((point.x - startX) * clippedX + (point.y - startY) * clippedY) / clippedLengthSq) 0 1
      else 0
    let projected : Point K := ⟨startX + projection * clippedX, startY + projection * clippedY⟩
    let distanceM := distance maths point projected
    let tangentX := segmentX / segmentLength
    let tangentY := segmentY / segmentLength
    if w.requireForwardMotion ∧ w.motionX * tangentX + w.motionY * tangentY ≤ kEpsilon then best
    else
      let found : PathProjection K :=
        { arcM := clippedStart + projection * (clippedEnd - clippedStart)
          distanceM := distanceM
          segmentLengthM := segmentLength
          tangentX := tangentX
          tangentY := tangentY
          segmentStartX := a.x
          segmentStartY := a.y }
      match best with
      | none => some found
      | some old => if distanceM < old.distanceM then some found else best

def projectToArcWindow : Option (PathProjection K) :=
  if poses.length < 2 ∨ arc.length ≠ poses.length ∨ w.maxArcM < w.minArcM then none
  else (List.range (poses.length - 1)).foldl (projectSegment maths poses arc point w) none

end Project

/-! ## The end of the window -/

/-- A query as evidence: its motion since the last one, its heading, and what a pivot may miss. -/
structure Motion (K : Type) where
  query : Point K
  dx : K
  dy : K
  length : K
  headingX : K
  headingY : K
  slack : K

section Evidence

variable (b : Boundary K) (m : Motion K) (pr : PathProjection K)

def forwardMotionAlong : K := m.dx * pr.tangentX + m.dy * pr.tangentY

def isNearAlignedPivot : Bool :=
  let headingAlignment := m.headingX * pr.tangentX + m.headingY * pr.tangentY
  let motionHeadingAlignment :=
    if kEpsilon < m.length then (m.dx * m.headingX + m.dy * m.headingY) / m.length else -1
  let queryToSegmentStart := distance maths m.query ⟨pr.segmentStartX, pr.segmentStartY⟩
  decide (queryToSegmentStart ≤ kBoundaryRecoveryProjectionSlackM + m.slack + kEpsilon) &&
    decide (kBoundaryRecoveryMinHeadingAlignment ≤ headingAlignment) &&
    decide (kBoundaryRecoveryMinHeadingAlignment ≤ motionHeadingAlignment)

def followsOriginDirection : Bool :=
  decide (kBoundaryRecoveryMinHeadingAlignment ≤
    b.originTangentX * pr.tangentX + b.originTangentY * pr.tangentY)

def isDirectionChangePivot : Bool :=
  !followsOriginDirection b pr && isNearAlignedPivot maths m pr

def eligible : Bool := followsOriginDirection b pr || isDirectionChangePivot maths b m pr

/-- What a projection may miss: the slack at a pivot. -/
def pivotSlack : K := if isDirectionChangePivot maths b m pr then m.slack else kEpsilon

/-- The forward projection wins over the ordinary one. -/
def advancingPathProjection (highWaterArcM : K) (current : PathProjection K) : Bool :=
  eligible maths b m pr && decide (highWaterArcM + kEpsilon < pr.arcM) &&
    decide (pr.distanceM ≤ b.radiusM + kEpsilon) &&
    decide (pr.distanceM ≤ current.distanceM + pivotSlack maths b m pr) &&
    decide (kBoundaryRecoveryMinMotionAlignment ≤ forwardMotionAlong m pr / m.length)

/-- A path-aligned retrace cancels earned motion. -/
def retraced (highWaterArcM : K) (current : PathProjection K) : K :=
  if pr.arcM ≤ highWaterArcM + kEpsilon ∧ pr.distanceM ≤ b.radiusM + kEpsilon ∧
      pr.distanceM ≤ current.distanceM + m.slack + kEpsilon ∧
      forwardMotionAlong m pr < -kEpsilon then
    max 0 (b.forwardMotionM + forwardMotionAlong m pr)
  else b.forwardMotionM

/-- Motion along an eligible projection is credited. -/
def credited (highWaterOffsetM highWaterArcM : K) : Boundary K :=
  let arcAdvance := pr.arcM - highWaterArcM
  let forwardMotion := forwardMotionAlong m pr
  let motionAlignment := if kEpsilon < m.length then forwardMotion / m.length else -1
  if kEpsilon < arcAdvance ∧ kBoundaryRecoveryMinMotionAlignment ≤ motionAlignment then
    let arcCredit := min arcAdvance (m.length + pivotSlack maths b m pr)
    { b with
      highWaterOffsetM := some (highWaterOffsetM + arcCredit)
      forwardMotionM := b.forwardMotionM + forwardMotion }
  else b

end Evidence

section Recover

variable (poses : List (Point K)) (arc : List K)

/-- The segment into the boundary, or the next one out of it if that is longer. -/
def localSegmentLength (boundary : Nat) : K :=
  let here := poseAt poses boundary
  let before := poseAt poses (boundary - 1)
  let incomingX := here.x - before.x
  let incomingY := here.y - before.y
  let incoming := maths.sqrt (incomingX * incomingX + incomingY * incomingY)
  let outgoingLengthSq := fun i =>
    let after := poseAt poses i
    (after.x - here.x) * (after.x - here.x) + (after.y - here.y) * (after.y - here.y)
  match (List.range' (boundary + 1) (poses.length - (boundary + 1))).find? fun i =>
      decide (0 < outgoingLengthSq i) with
  | none => incoming
  | some i => max incoming (maths.sqrt (outgoingLengthSq i))

def lastNonzeroSegmentLength : K :=
  match (List.range' 1 (poses.length - 1)).reverse.find? fun i =>
      decide (0 < arcAt arc i - arcAt arc (i - 1)) with
  | none => 0
  | some i => arcAt arc i - arcAt arc (i - 1)

variable (b : Boundary K) (start boundary : Nat) (previous : Option (Point K)) (pose : Pose K)

def searchWindowM : K := arcAt arc boundary - arcAt arc start

def localBoundaryRadius : K :=
  min (searchWindowM arc start boundary)
    (max 0.1 (3.0 * localSegmentLength maths poses boundary))

/-- The projection on the path around the boundary, if the query is there and not at the end. -/
def locallyAtBoundary : Option (PathProjection K) :=
  let query := pose.position
  let radius := localBoundaryRadius maths poses arc start boundary
  let boundaryArcM := arcAt arc boundary
  let total := arcAt arc (arc.length - 1)
  let window : ArcWindow K :=
    ⟨max 0 (boundaryArcM - radius), min total (boundaryArcM + radius), 0, 0, false⟩
  let boundaryDistance := distance maths query (poseAt poses boundary)
  let endpointExclusionM := min radius (max 0.05 (lastNonzeroSegmentLength poses arc))
  let endpointDistance := distance maths query (poseAt poses (poses.length - 1))
  match projectToArcWindow maths poses arc query window with
  | none => none
  | some projection =>
    if boundaryDistance ≤ radius + kEpsilon ∧ projection.distanceM ≤ radius + kEpsilon ∧
        endpointExclusionM + kEpsilon < endpointDistance then
      some projection
    else none

/-- The first local observation is kept. -/
def latch (projection : PathProjection K) : Boundary K :=
  let originOffsetM := projection.arcM - arcAt arc boundary
  { index := some boundary
    originOffsetM := some originOffsetM
    highWaterOffsetM := some originOffsetM
    originTangentX := projection.tangentX
    originTangentY := projection.tangentY
    forwardMotionM := 0
    radiusM := localBoundaryRadius maths poses arc start boundary
    minimumMotionM := max 0.015 (min (0.5 * projection.segmentLengthM) 0.02) }

/-- What a later observation adds, and whether it passes the boundary. -/
def accumulate (originOffsetM highWaterOffsetM : K) : Boundary K × Bool :=
  let query := pose.position
  let motion : Motion K :=
    { query := query
      dx := previous.elim 0 fun q => query.x - q.x
      dy := previous.elim 0 fun q => query.y - q.y
      length := previous.elim 0 fun q => distance maths query q
      headingX := maths.cos pose.yaw
      headingY := maths.sin pose.yaw
      slack := kBoundaryRecoveryProjectionSlackM + max 0 (-originOffsetM) }
  -- A jump out of the neighborhood breaks the evidence.
  if b.radiusM < motion.length then (b.reset, false)
  else
    let totalArc := arcAt arc (arc.length - 1)
    let highWaterArcM := arcAt arc boundary + highWaterOffsetM
    let minTrackingArc := max 0 (highWaterArcM - searchWindowM arc start boundary)
    let maxTrackingArc := min totalArc (highWaterArcM + motion.length + motion.slack)
    match projectToArcWindow maths poses arc query ⟨minTrackingArc, maxTrackingArc, 0, 0, false⟩ with
    | none => (b, false)
    | some current =>
      if b.radiusM + kEpsilon < current.distanceM then (b, false)
      else
        let forward :=
          if highWaterArcM + kEpsilon < maxTrackingArc then
            (projectToArcWindow maths poses arc query
              ⟨highWaterArcM + kEpsilon, maxTrackingArc, motion.dx, motion.dy, true⟩).filter
                fun pr => advancingPathProjection maths b motion pr highWaterArcM current
          else none
        let reverse :=
          if kEpsilon < motion.length ∧ forward.isNone then
            projectToArcWindow maths poses arc query
              ⟨minTrackingArc, highWaterArcM, -motion.dx, -motion.dy, true⟩
          else none
        let progress :=
          forward.orElse fun _ => if eligible maths b motion current then some current else none
        let b :=
          { b with
            forwardMotionM :=
              reverse.elim b.forwardMotionM fun pr => retraced b motion pr highWaterArcM current }
        let b :=
          progress.elim b fun pr => credited maths b motion pr highWaterOffsetM highWaterArcM
        let projectedForwardMotion := b.highWaterOffsetM.getD 0 - originOffsetM
        (b, decide (b.minimumMotionM - kEpsilon ≤ b.forwardMotionM) &&
          decide (b.minimumMotionM - kEpsilon ≤ projectedForwardMotion))

/-- A query that is nearest to the end of its window, and whether it passes it. -/
def recover : Boundary K × Bool :=
  let latched :=
    if b.index = some boundary ∧ b.originOffsetM.isSome then none
    else locallyAtBoundary maths poses arc start boundary pose
  match latched with
  | some projection => (latch maths poses arc start boundary projection, false)
  | none =>
    match b.originOffsetM, b.highWaterOffsetM with
    | some originOffsetM, some highWaterOffsetM =>
      if b.index = some boundary then
        accumulate maths poses arc b start boundary previous pose originOffsetM highWaterOffsetM
      else (b, false)
    | _, _ => (b, false)

end Recover

/-! ## The checker -/

namespace Checker

variable (s : Checker K)

def reset : Checker K :=
  { s with
    maxReachedIndex := 0
    pending := s.pending.reset
    lastProgressQuery := none
    emptyPathFirstCall := none }

/-- Another number of poses, or another start: not the plan that is published again. -/
def isNew (msg : Path K) : Bool :=
  decide (msg.poses.length ≠ s.lastPathSize) ||
    decide (2.0 < distance maths (poseAt msg.poses 0) s.lastPathFirst)

def onPath (msg : Path K) : Checker K :=
  if msg.poses.isEmpty then s
  else
    let next :=
      { s with
        emptyPathFirstCall := none
        pathFrame := msg.frameId
        pathPoses := msg.poses
        pathArcM := cumulativeArcLength maths msg.poses }
    if s.isNew maths msg then
      { next with
        lastPathSize := msg.poses.length
        lastPathFirst := poseAt msg.poses 0
        maxReachedIndex := 0
        pending := s.pending.reset
        lastProgressQuery := none }
    else next

/-- How far the point that has been reached lies behind the pose of the cursor. -/
def reachedAlong (robot : Point K) : K :=
  let last := s.pathPoses.length - 1
  let k := min s.maxReachedIndex last
  if k < last then
    let a := poseAt s.pathPoses k
    let b := poseAt s.pathPoses (k + 1)
    let seg := arcAt s.pathArcM (k + 1) - arcAt s.pathArcM k
    if 0 < seg then
      clamp (((robot.x - a.x) * (b.x - a.x) + (robot.y - a.y) * (b.y - a.y)) / seg) 0 seg
    else 0
  else 0

def remainingPathLength (robot : Point K) : Option K :=
  if s.pathPoses.isEmpty ∨ s.pathArcM.length ≠ s.pathPoses.length then none
  else
    let last := s.pathPoses.length - 1
    let k := min s.maxReachedIndex last
    some (arcAt s.pathArcM last - arcAt s.pathArcM k - s.reachedAlong robot)

/-- The final check of `SimpleGoalChecker`. -/
def withinGoal (q : Query K) : Bool :=
  if p.xyGoalTolerance < distance maths q.pose.position q.goal.position then false
  else
    let yaw := q.pose.yaw - q.goal.yaw
    let yawErr := maths.atan2 (maths.sin yaw) (maths.cos yaw)
    decide (|yawErr| ≤ p.yawGoalTolerance)

/-- The pose that progress is measured with; `none` ends the call. -/
def progressPose (q : Query K) : Option (Pose K) :=
  if p.queryFrame ≠ "" ∧ s.pathFrame ≠ p.queryFrame then
    if !p.hasBuffer || s.pathFrame = "" then none else q.transformed
  else some q.pose

def queryMoved (query : Point K) : Bool :=
  match s.lastProgressQuery with
  | none => true
  | some last => decide (kMinProgressQueryMotionM ≤ distance maths query last)

/-- One round of the search: the nearest pose so far, and its distance squared. -/
def nearer (query : Point K) (best : Option K × Nat) (i : Nat) : Option K × Nat :=
  let dx := (poseAt s.pathPoses i).x - query.x
  let dy := (poseAt s.pathPoses i).y - query.y
  let d2 := dx * dx + dy * dy
  match best.1 with
  | none => (some d2, i)
  | some bestD2 => if d2 < bestD2 then (some d2, i) else best

def searchStart : Nat := min s.maxReachedIndex (s.pathPoses.length - 1)

/-- `size_t` -/
def searchEnd : Nat :=
  min ((s.searchStart + p.maxIdxAdvancePerCall + 1) % 18446744073709551616) s.pathPoses.length

def bestIdx (query : Point K) : Nat :=
  ((List.range' s.searchStart (s.searchEnd p - s.searchStart)).foldl (s.nearer query)
    (none, s.maxReachedIndex)).2

/-- `end_exclusive - 1`, a `size_t` too. -/
def searchBoundary : Nat := (s.searchEnd p + 18446744073709551615) % 18446744073709551616

/-- What a query that moved does to the cursor. -/
def advance (pose : Pose K) : Checker K :=
  let n := s.pathPoses.length
  let best := s.bestIdx p pose.position
  let boundary := s.searchBoundary p
  let evidence :=
    if best = boundary ∧ s.searchStart < boundary ∧ s.pathArcM.length = n then
      recover maths s.pathPoses s.pathArcM s.pending s.searchStart boundary s.lastProgressQuery pose
    else (s.pending.reset, false)
  let next := { s with lastProgressQuery := some pose.position, pending := evidence.1 }
  if s.maxReachedIndex < best ∧ (best ≠ boundary ∨ boundary = n - 1 ∨ evidence.2) then
    { next with
      maxReachedIndex := best
      pending := if evidence.2 then evidence.1.reset else evidence.1 }
  else next

/-- The progress gate, and the final check. -/
def completes (query : Point K) (q : Query K) : Bool :=
  let progress : K := (s.maxReachedIndex : K) / ((s.pathPoses.length - 1 : Nat) : K)
  let remainingWithin := fun bound : K =>
    (s.remainingPathLength query).elim false fun remaining => decide (remaining ≤ bound)
  let endApproach := remainingWithin p.xyGoalTolerance
  let poseRatio :=
    decide (p.progressThreshold ≤ progress) &&
      remainingWithin (max kRatioRuleMaxRemainingM p.xyGoalTolerance)
  (endApproach || poseRatio) && withinGoal maths p q

def isGoalReached (q : Query K) : Checker K × Bool :=
  if s.pathPoses.isEmpty then
    match s.emptyPathFirstCall with
    | none => ({ s with emptyPathFirstCall := some q.now }, false)
    | some first =>
      if q.now - first < p.fallbackTimeoutS then (s, false) else (s, withinGoal maths p q)
  else if s.pathPoses.length ≤ p.shortPathPoses then (s, withinGoal maths p q)
  else
    match s.progressPose p q with
    | none => (s, false)
    | some pose =>
      let next := if s.queryMoved maths pose.position then s.advance maths p pose else s
      (next, next.completes maths p pose.position q)

/-- Where an accepted query was. -/
def acceptedQuery (q : Query K) : Option (Point K) :=
  if p.shortPathPoses < s.pathPoses.length then
    (s.progressPose p q).elim none fun pose =>
      if s.queryMoved maths pose.position then some pose.position else none
  else none

end Checker

/-! ## Runs -/

inductive Event (K : Type) where
  | reset
  | path (msg : Path K)
  | query (q : Query K)

def Checker.step (s : Checker K) : Event K → Checker K
  | .reset => s.reset
  | .path msg => s.onPath maths msg
  | .query q => (s.isGoalReached maths p q).1

structure Entry (K : Type) [Field K] where
  event : Event K
  before : Checker K
  after : Checker K

def Entry.mark (e : Event K) (before after : Checker K) : Entry K := ⟨e, before, after⟩

def history (es : List (Event K)) : List (Entry K) :=
  (History.run (Checker.step maths p) Entry.mark ({} : Checker K) [] es).2

end Nav
end Mowgli
