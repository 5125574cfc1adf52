import Mowgli.Map.Raster
import Mowgli.Lib.Text

/-!
# Areas — the map server and the list it keeps

The state of `map_server_node` as far as the areas, their obstacles and the LiDAR-ignore
corridors go, with what `add_area` stores and `get_mowing_area` answers.

An area, an obstacle and a corridor each have an id of their own. The ids of areas and
corridors are stored; those of obstacles are handles of one session.
-/

namespace Mowgli
namespace Map

def SOURCE_USER : UInt8 := 0
def SOURCE_TRACKER : UInt8 := 1
def SOURCE_DIG : UInt8 := 2

structure ObstacleEntry (F : Type) where
  polygon : Polygon F
  name : Str
  source : UInt8
  /-- Only a proposal. -/
  pending : Bool
  id : UInt32

structure AreaEntry (F D : Type) where
  name : Str
  polygon : Polygon F
  obstacles : List (ObstacleEntry F)
  isNavigationArea : Bool
  id : UInt32
  coverageLines : AreaCoverageLines D

structure LidarIgnoreCorridorEntry (F D : Type) where
  name : Str
  polyline : Polygon F
  widthM : D
  id : UInt32

/-- The grid of the map. -/
structure GridMap (D : Type) where
  sizeX : D
  sizeY : D
  position : D × D
  classification : Layer
  classificationDirty : Bool
  /-- Why there is no grid for the areas; empty if there is one. -/
  planningGridError : Str

structure DockGeometry (F : Type) where
  bodyPolygon : Polygon F
  corridorPolygon : Polygon F

/-- The parameters of the node. -/
structure Settings (D : Type) where
  areasFilePath : Str
  datumLat : D
  datumLon : D
  resolution : D
  maxGridCells : D
  digProposalRadiusM : D
  keepoutObstacleMarginM : D

structure MapServer (F D : Type) where
  areas : List (AreaEntry F D)
  /-- The flat cache of applied keepouts. -/
  obstaclePolygons : List (Polygon F)
  nextAreaId : UInt32
  nextObstacleId : UInt32
  lidarIgnoreCorridors : List (LidarIgnoreCorridorEntry F D)
  /-- A `uint64_t` that stays within 32 bits and one sentinel. -/
  nextLidarCorridorId : Nat
  corridorServerInstanceId : Str
  corridorRevision : UInt64
  corridorPublicationPending : Bool
  /-- The latched list on `lidar_ignore_corridors`. -/
  lidarIgnoreCorridorsPub : Option (List (LidarIgnoreCorridorEntry F D))
  areaListGeneration : UInt64
  /-- The latest tracker obstacles, each with its id. -/
  lastTrackerSnapshot : List (UInt32 × Polygon F)
  /-- Where the robot was last. -/
  robotPose : Option (D × D)
  grid : GridMap D
  /-- `none` without `has_dock_exclusion_`. -/
  dock : Option (DockGeometry F)
  settings : Settings D
  /-- What stands under `areasFilePath`. -/
  file : Option Str

/-- A node before it loads anything. -/
def MapServer.boot {F D : Type} (settings : Settings D) (grid : GridMap D)
    (dock : Option (DockGeometry F)) (corridorServerInstanceId : Str) (file : Option Str) :
    MapServer F D :=
  { areas := [], obstaclePolygons := [], nextAreaId := 1, nextObstacleId := 1,
    lidarIgnoreCorridors := [], nextLidarCorridorId := 1,
    corridorServerInstanceId := corridorServerInstanceId, corridorRevision := 0,
    corridorPublicationPending := false, lidarIgnoreCorridorsPub := none,
    areaListGeneration := 0, lastTrackerSnapshot := [], robotPose := none, grid := grid,
    dock := dock, settings := settings, file := file }

section Services

variable {F D : Type} (fl : Floats F D)

/-- `makeObstacleEntry`, with the id taken. -/
def makeObstacleEntry (σ : MapServer F D) (polygon : Polygon F) (name : Str) (source : UInt8)
    (pending : Bool) : ObstacleEntry F × MapServer F D :=
  ({ polygon := polygon, name := name, source := source, pending := pending,
     id := σ.nextObstacleId },
    { σ with nextObstacleId := σ.nextObstacleId + 1 })

def hasDuplicateObstacleEntry (existing : List (ObstacleEntry F)) (candidate : Polygon F) (eps : D)
    (includePending : Bool) : Bool :=
  hasDuplicateObstacle fl
    ((existing.filter fun obs => includePending || !obs.pending).map (·.polygon)) candidate eps

structure MapObstacleInfo where
  name : Str
  source : UInt8
  pending : Bool
  id : UInt32

/-- `mowgli_interfaces/MapArea`. -/
structure MapArea (F D : Type) where
  name : Str
  area : Polygon F
  obstacles : List (Polygon F)
  isNavigationArea : Bool
  obstacleInfo : List MapObstacleInfo
  proposedObstacles : List (Polygon F)
  proposedObstacleInfo : List MapObstacleInfo
  id : UInt32
  lines : AreaCoverageLines D

/-- The coverage lines an area is stored with. -/
def storedLines (polygon : Polygon F) (r : AreaCoverageLines D) : AreaCoverageLines D :=
  match checkCoverageLines fl.double r with
  | .error _ => .zero fl.double
  | .ok lines =>
    if lines.hasStartPoint &&
        !startPointNearPolygon fl (polygonPairs fl polygon) lines.startX lines.startY then
      { lines with hasStartPoint := false, startX := fl.double.lit 0, startY := fl.double.lit 0 }
    else lines

/-- The id of a new entry, and the counter behind it. -/
def assignAreaId (areas : List (AreaEntry F D)) (next id : UInt32) : UInt32 × UInt32 :=
  let r :=
    if id == 0 then (next, next + 1)
    else if areas.any fun existing => existing.id == id then (next, next + 1)
    else (id, next)
  (r.1, if r.2 ≤ r.1 then r.1 + 1 else r.2)

/-- The obstacles of a request; one with fewer than 3 points is left out. -/
def addObstacles (σ : MapServer F D) (info : List MapObstacleInfo) :
    List (Polygon F) → List (ObstacleEntry F) × MapServer F D
  | [] => ([], σ)
  | obstacle :: obstacles =>
    if 3 ≤ obstacle.length then
      let name := (info.head?.map (·.name)).getD []
      let source := (info.head?.map (·.source)).getD SOURCE_USER
      let made := makeObstacleEntry σ obstacle name source false
      let rest := addObstacles made.2 info.tail obstacles
      (made.1 :: rest.1, rest.2)
    else addObstacles σ info.tail obstacles

/-- What `add_area` stores of a request, before it saves. -/
def storeArea (σ : MapServer F D) (req : MapArea F D) (isNavigationArea : Bool) : MapServer F D :=
  let assigned := assignAreaId σ.areas σ.nextAreaId req.id
  let made := addObstacles { σ with nextAreaId := assigned.2 } req.obstacleInfo req.obstacles
  { made.2 with
    areas := made.2.areas ++
      [{ name := req.name
         polygon := req.area
         obstacles := made.1
         isNavigationArea := isNavigationArea
         id := assigned.1
         coverageLines := storedLines fl req.area req.lines }] }

def ObstacleEntry.info (obs : ObstacleEntry F) : MapObstacleInfo :=
  { name := obs.name, source := obs.source, pending := obs.pending, id := obs.id }

/-- The response to one area. -/
def AreaEntry.response (entry : AreaEntry F D) : MapArea F D :=
  let applied := entry.obstacles.filter fun obs => !obs.pending
  let proposed := entry.obstacles.filter fun obs => obs.pending
  { name := entry.name
    area := entry.polygon
    obstacles := applied.map (·.polygon)
    isNavigationArea := entry.isNavigationArea
    obstacleInfo := applied.map (·.info)
    proposedObstacles := proposed.map (·.polygon)
    proposedObstacleInfo := proposed.map (·.info)
    id := entry.id
    lines := entry.coverageLines }

/-- `on_get_mowing_area`; `none` is a refusal. -/
def onGetMowingArea (σ : MapServer F D) (index : Nat) : Option (MapArea F D) :=
  σ.areas[index]?.map (·.response)

end Services

/-!
## Maps over a format that does not round

Both formats of the map server without rounding. What is no integer is printed as a fraction.
-/

def showInteger : Int → Str
  | .ofNat n => Text.decimal n
  | .negSucc n => '-' :: Text.decimal (n + 1)

def showRational (x : ℚ) : Str :=
  showInteger x.num ++ if x.den = 1 then [] else '/' :: Text.decimal x.den

/-- A number and the denominator after it. -/
def readFraction (sign : Int) (s : Str) : Option ℚ :=
  (Text.digits s).bind fun r =>
    match r.2 with
    | '/' :: rest => (Text.digits rest).map fun d => mkRat (sign * r.1) d.1
    | _ => some (sign * r.1 : Int)

def readRational (s : Str) : Option ℚ :=
  match Text.skipSpace s with
  | '-' :: rest => readFraction (-1) rest
  | rest => readFraction 1 rest

/-- Cell centres around a position, from the largest. -/
def axis (size resolution position : ℚ) : List ℚ :=
  let n := ⌊size / resolution + 1 / 2⌋.toNat
  (List.range n).map fun i => position + n * resolution / 2 - resolution * (i + 1 / 2)

def exact : Floats ℚ ℚ :=
  { single := exactArith
    double := exactArith
    widen := id
    narrow := id
    showSingle := fun _ x => showRational x
    showDouble := fun _ x => showRational x
    showFixed := fun _ x => showRational x
    stof := readRational
    stod := readRational
    cellAxes := fun sizeX sizeY resolution position =>
      (axis sizeX resolution position.1, axis sizeY resolution position.2)
    -- no run here moves the datum
    reprojectEnu := fun _ _ point => point }

def exactSettings : Settings ℚ :=
  { areasFilePath := "areas.dat".toList, datumLat := 48, datumLon := 2, resolution := 1,
    maxGridCells := 4000000, digProposalRadiusM := 19 / 100, keepoutObstacleMarginM := 0 }

def emptyGrid (sizeX sizeY : ℚ) : GridMap ℚ :=
  { sizeX := sizeX, sizeY := sizeY, position := (0, 0), classification := fun _ _ => .UNKNOWN,
    classificationDirty := false, planningGridError := [] }

end Map
end Mowgli
