import Mowgli.Map.Load

/-!
# Services — what the operator and the robot ask of the map

The services of `area_manager.cpp` over the list of areas: adding and clearing, coverage lines,
keepouts, saving and loading; and the dig reports, which only ever leave a proposal.
-/

namespace Mowgli
namespace Map

/-- A response with a text. -/
structure Reply where
  success : Bool
  message : Str

section Services

variable {F D : Type} (fl : Floats F D)

/-- `persist_areas_best_effort`. -/
def persistAreasBestEffort (σ : MapServer F D) (disk : Disk) : MapServer F D :=
  if σ.settings.areasFilePath.isEmpty then σ else saveBestEffort fl σ disk

def bumpAreaListGeneration (σ : MapServer F D) : MapServer F D :=
  { σ with areaListGeneration := σ.areaListGeneration + 1 }

/-- `on_add_area`. The cells are classified later, once for a burst of areas. -/
def onAddArea (σ : MapServer F D) (req : MapArea F D) (isNavigationArea : Bool) (disk : Disk) :
    MapServer F D × Bool :=
  if req.area.length < 3 then (σ, false)
  else
    let σ := resizeMapToAreas fl (storeArea fl σ req isNavigationArea)
    let σ := { σ with grid := { σ.grid with classificationDirty := true } }
    (bumpAreaListGeneration (persistAreasBestEffort fl σ disk), true)

/-- `on_clear_map`. The corridors and the counters stay. -/
def onClearMap (σ : MapServer F D) : MapServer F D :=
  let σ := clearMapLayers σ
  { σ with
    areas := []
    obstaclePolygons := []
    grid := { σ.grid with planningGridError := [] } }

/-- An entry of a list changed in place, the first that has a property. -/
def modifyFirst {α : Type} (p : α → Bool) (f : α → α) : List α → List α
  | [] => []
  | a :: as => if p a then f a :: as else a :: modifyFirst p f as

/-- `on_set_area_coverage_lines`. -/
def onSetAreaCoverageLines (σ : MapServer F D) (id : UInt32) (lines : AreaCoverageLines D)
    (disk : Disk) : MapServer F D × Reply :=
  match checkCoverageLines fl.double lines with
  | .error message => (σ, { success := false, message := message.toList })
  | .ok lines =>
    let addressed (entry : AreaEntry F D) : Bool := entry.id == id && id != 0
    match σ.areas.find? addressed with
    | none =>
      (σ, { success := false, message := "no area with id ".toList ++ Text.decimal id.toNat })
    | some entry =>
      if entry.isNavigationArea then
        (σ,
          { success := false
            message := "navigation areas are not mowed, so they have no coverage lines".toList })
      else if lines.hasStartPoint &&
          !startPointNearPolygon fl (polygonPairs fl entry.polygon) lines.startX lines.startY then
        (σ, { success := false, message := "the start point is not near this area".toList })
      else
        let σ :=
          { σ with
            areas := modifyFirst addressed (fun entry => { entry with coverageLines := lines })
              σ.areas }
        if σ.settings.areasFilePath.isEmpty then
          (bumpAreaListGeneration σ, { success := true, message := [] })
        else
          match writeAreasCandidate fl σ false σ.lidarIgnoreCorridors σ.nextLidarCorridorId disk with
          | .error what =>
            (σ,
              { success := false
                message := "applied in memory but could not be saved: ".toList ++ what })
          | .ok written =>
            (bumpAreaListGeneration { σ with file := some written.1 },
              { success := true, message := [] })

/-! ## Keepouts -/

/-- `apply_promoted_obstacle`. -/
def applyPromotedObstacle (σ : MapServer F D) (areaIndex : Nat) (polygon : Polygon F) (name : Str)
    (source : UInt8) : MapServer F D × Bool :=
  match σ.areas[areaIndex]? with
  | none => (σ, false)
  | some area =>
    if area.isNavigationArea then (σ, false)
    else if polygon.length < 3 then (σ, false)
    else
      let eps := kObstacleDedupEpsilonM fl
      if hasDuplicateObstacle fl σ.obstaclePolygons polygon eps ||
          hasDuplicateObstacleEntry fl area.obstacles polygon eps false then (σ, true)
      else
        let made := makeObstacleEntry σ polygon name source false
        let σ := made.2
        (applyAreaClassifications fl
          { σ with
            areas := σ.areas.modify areaIndex fun area =>
              { area with obstacles := area.obstacles ++ [made.1] }
            obstaclePolygons := σ.obstaclePolygons ++ [polygon] },
          true)

def isProposal (id : UInt32) (obs : ObstacleEntry F) : Bool := obs.id == id && obs.pending

/-- `accept_clearance_m`. -/
def acceptClearanceM (σ : MapServer F D) : D :=
  let d := fl.double
  d.add (d.max σ.settings.keepoutObstacleMarginM (d.lit 0)) σ.settings.resolution

/-- `robot_inside_accepted_band`: how far the robot is from the keepout, when too near. -/
def robotInsideAcceptedBand (σ : MapServer F D) (pendingId : UInt32) : Option D :=
  match σ.robotPose with
  | none => none
  | some robot =>
    match (σ.areas.flatMap (·.obstacles)).find? (isProposal pendingId) with
    | none => none
    | some obs =>
      let d := fl.double
      let dist :=
        if pointInPolygon fl (fl.narrow robot.1) (fl.narrow robot.2) obs.polygon then d.lit 0
        else pointToPolygonDistance fl robot.1 robot.2 obs.polygon
      if d.le dist (acceptClearanceM fl σ) then some dist else none

def accept (name : Str) (obs : ObstacleEntry F) : ObstacleEntry F :=
  { obs with pending := false, name := if name.isEmpty then obs.name else name }

def hasProposal (id : UInt32) (area : AreaEntry F D) : Bool :=
  area.obstacles.any (isProposal id)

/-- `accept_pending_obstacle`, with the index of the area. -/
def acceptPendingObstacle (σ : MapServer F D) (pendingId : UInt32) (name : Str) :
    MapServer F D × Option Nat :=
  if pendingId == 0 then (σ, none)
  else
    match (σ.areas.flatMap (·.obstacles)).find? (isProposal pendingId) with
    | none => (σ, none)
    | some obs =>
      (applyAreaClassifications fl
        { σ with
          areas := modifyFirst (hasProposal pendingId) (fun area =>
            { area with
              obstacles := modifyFirst (isProposal pendingId) (accept name) area.obstacles }) σ.areas
          obstaclePolygons := σ.obstaclePolygons ++ [obs.polygon] },
        some (σ.areas.findIdx (hasProposal pendingId)))

/-- An entry of a list taken out, the first that has a property. -/
def eraseFirst {α : Type} (p : α → Bool) : List α → List α
  | [] => []
  | a :: as => if p a then as else a :: eraseFirst p as

/-- `discard_pending_obstacle`. -/
def discardPendingObstacle (σ : MapServer F D) (pendingId : UInt32) : MapServer F D × Bool :=
  if pendingId == 0 then (σ, false)
  else if σ.areas.any (hasProposal pendingId) then
    ({ σ with
        areas := modifyFirst (hasProposal pendingId) (fun area =>
          { area with obstacles := eraseFirst (isProposal pendingId) area.obstacles }) σ.areas },
      true)
  else (σ, false)

def onDiscardObstacle (σ : MapServer F D) (obstacleId : UInt32) : MapServer F D × Reply :=
  let r := discardPendingObstacle σ obstacleId
  (r.1,
    { success := r.2
      message :=
        if r.2 then
          "pending obstacle ".toList ++ Text.decimal obstacleId.toNat ++ " discarded".toList
        else
          "no pending obstacle with id ".toList ++ Text.decimal obstacleId.toNat ++
            (" (accepted keepouts are part of the saved map - edit the area to " ++
              "remove one)").toList })

/-- `PromoteObstacle::Request`. -/
structure PromoteRequest (F : Type) where
  areaIndex : UInt32
  obstacleId : UInt32
  polygon : Polygon F
  pendingId : UInt32
  name : Str

/-- The first path of `on_promote_obstacle`: a proposal becomes a keepout. -/
def promotePending (σ : MapServer F D) (req : PromoteRequest F) (disk : Disk) :
    MapServer F D × Reply :=
  match robotInsideAcceptedBand fl σ req.pendingId with
  | some blocked =>
    (σ,
      { success := false
        message :=
          ("the robot is standing on this proposal: accepting it now would put the robot " ++
            "INSIDE the new keepout (").toList ++ fl.showFixed 2 blocked ++
          " m from its edge, ".toList ++ fl.showFixed 2 (acceptClearanceM fl σ) ++
          (" m needed) and no path could be planned from there. Let the robot drive away " ++
            "or send it home, then accept again.").toList })
  | none =>
    match acceptPendingObstacle fl σ req.pendingId req.name with
    | (_, none) =>
      (σ,
        { success := false
          message :=
            "no pending obstacle with id ".toList ++ Text.decimal req.pendingId.toNat ++
              (" (already accepted, discarded, or lost to a restart — proposals are " ++
                "session-scoped)").toList })
    | (σ, some areaIndex) =>
      (persistAreasBestEffort fl σ disk,
        { success := true
          message :=
            "pending obstacle ".toList ++ Text.decimal req.pendingId.toNat ++
              " accepted as a permanent keepout for area ".toList ++ Text.decimal areaIndex })

/-- The polygon of a promotion, drawn or tracked, and where it is from. -/
def promoted (σ : MapServer F D) (req : PromoteRequest F) : Option (Polygon F × UInt8) :=
  if 3 ≤ req.polygon.length then some (req.polygon, SOURCE_USER)
  else
    (σ.lastTrackerSnapshot.find? fun obs => obs.1 == req.obstacleId).map fun obs =>
      (obs.2, SOURCE_TRACKER)

def onPromoteObstacle (σ : MapServer F D) (req : PromoteRequest F) (disk : Disk) :
    MapServer F D × Reply :=
  if req.pendingId != 0 then promotePending fl σ req disk
  else
    match promoted σ req with
    | none =>
      (σ,
        { success := false
          message :=
            "obstacle_id not found in last tracker snapshot and no polygon supplied".toList })
    | some (polygon, source) =>
      match applyPromotedObstacle fl σ req.areaIndex.toNat polygon req.name source with
      | (_, false) =>
        (σ,
          { success := false
            message :=
              ("promotion rejected (bad area_index, navigation area, or polygon < 3 " ++
                "points)").toList })
      | (σ, true) =>
        (persistAreasBestEffort fl σ disk,
          { success := true
            message :=
              "obstacle promoted to permanent keepout for area ".toList ++
                Text.decimal req.areaIndex.toNat })

/-! ## Dig reports -/

/-- `mowgli_interfaces/DigEvent`. -/
structure DigEvent (D : Type) where
  x : D
  y : D
  wheelDistance : D
  mapDistance : D
  positionSigma : D

def mowingAreaContaining (σ : MapServer F D) (x y : D) : Option Nat :=
  σ.areas.findIdx? fun area =>
    !area.isNavigationArea && pointInPolygon fl (fl.narrow x) (fl.narrow y) area.polygon

def kMinDigProposalRadiusM : D := fl.double.lit (1 / 10)
def kMaxDigSlipGrowthM : D := fl.double.lit (1 / 10)
def kDigProposalVertices : Nat := 8

def digProposalRadius (baseRadiusM mapDistanceM : D) : D :=
  let d := fl.double
  let base := if d.isFinite baseRadiusM then baseRadiusM else d.lit 0
  let creep := if d.isFinite mapDistanceM then mapDistanceM else d.lit 0
  let growth := d.min (d.max (d.mul creep (d.lit (1 / 2))) (d.lit 0)) (kMaxDigSlipGrowthM fl)
  d.max (d.add base growth) (kMinDigProposalRadiusM fl)

/-- `M_PI`. -/
def pi : D := fl.double.lit (3141592653589793 / 1000000000000000)

/-- A regular polygon around the disc. -/
def digProposalPolygon (x y radius : D) : Polygon F :=
  let d := fl.double
  let r := d.max radius (kMinDigProposalRadiusM fl)
  let step := d.div (d.mul (d.lit 2) (pi fl)) (d.lit kDigProposalVertices)
  let vertexR := d.div r (d.cos (d.mul step (d.lit (1 / 2))))
  (List.range kDigProposalVertices).map fun i =>
    let a := d.mul step (d.add (d.lit i) (d.lit (1 / 2)))
    { x := fl.narrow (d.add x (d.mul vertexR (d.cos a)))
      y := fl.narrow (d.add y (d.mul vertexR (d.sin a)))
      z := fl.single.lit 0 }

def digLabel (msg : DigEvent D) : Str :=
  "Dig at (".toList ++ fl.showFixed 2 msg.x ++ ", ".toList ++ fl.showFixed 2 msg.y ++
    "): wheels ".toList ++ fl.showFixed 2 msg.wheelDistance ++ " m vs pose ".toList ++
    fl.showFixed 2 msg.mapDistance ++ " m, sigma ".toList ++ fl.showFixed 3 msg.positionSigma ++
    " m".toList

/-- `add_obstacle_proposal`. Nothing but the list of the area. -/
def addObstacleProposal (σ : MapServer F D) (areaIndex : Nat) (polygon : Polygon F) (name : Str)
    (source : UInt8) : MapServer F D × Option UInt32 :=
  match σ.areas[areaIndex]? with
  | none => (σ, none)
  | some area =>
    if area.isNavigationArea || decide (polygon.length < 3) then (σ, none)
    else if hasDuplicateObstacleEntry fl area.obstacles polygon (kObstacleDedupEpsilonM fl) true then
      (σ, none)
    else
      let made := makeObstacleEntry σ polygon name source true
      let σ := made.2
      ({ σ with
          areas := σ.areas.modify areaIndex fun area =>
            { area with obstacles := area.obstacles ++ [made.1] } },
        some made.1.id)

def onDigEvent (σ : MapServer F D) (msg : DigEvent D) : MapServer F D :=
  match mowingAreaContaining fl σ msg.x msg.y with
  | none => σ
  | some areaIndex =>
    let obstacles := ((σ.areas[areaIndex]?).map (·.obstacles)).getD []
    if obstacles.any fun obs =>
        pointInPolygon fl (fl.narrow msg.x) (fl.narrow msg.y) obs.polygon then σ
    else
      let radius := digProposalRadius fl σ.settings.digProposalRadiusM msg.mapDistance
      (addObstacleProposal fl σ areaIndex (digProposalPolygon fl msg.x msg.y radius)
        (digLabel fl msg) SOURCE_DIG).1

/-! ## Saving and loading -/

/-- `on_save_areas`. -/
def onSaveAreas (σ : MapServer F D) (disk : Disk) : MapServer F D × Reply :=
  if σ.settings.areasFilePath.isEmpty then
    (σ,
      { success := false, message := "areas_file_path parameter is empty; cannot save.".toList })
  else
    match writeAreasCandidate fl σ true σ.lidarIgnoreCorridors σ.nextLidarCorridorId disk with
    | .error what => (σ, { success := false, message := "Save failed: ".toList ++ what })
    | .ok written =>
      ({ σ with file := some written.1 },
        { success := true, message := "Areas saved to ".toList ++ σ.settings.areasFilePath })

/-- `on_load_areas`. The text of a load that threw is that of the library. -/
def onLoadAreas (σ : MapServer F D) (idDisk datumDisk : Disk) : MapServer F D × Bool :=
  if σ.settings.areasFilePath.isEmpty then (σ, false)
  else
    match loadAreasFromFile fl σ idDisk datumDisk with
    | (σ, false) => (σ, false)
    | (σ, true) =>
      let σ := applyAreaClassifications fl σ
      (σ, σ.grid.planningGridError.isEmpty)

end Services

end Map
end Mowgli
