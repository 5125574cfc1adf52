import Mowgli.Lib.Lookup
import Mowgli.Map.Corridors

/-!
# Load — how areas.dat is read

`load_areas_from_file` of `area_manager.cpp`. The lines become keys and values, the last of a
key counting. A number that cannot be read ends the load where it stands: the corridors are
read before anything is touched, the areas are not.

The dock pose, which moves along with the datum on the first load, is not followed.
-/

namespace Mowgli
namespace Map

/-- The key and the value of a line. -/
def parseLine (line : Str) : Option (Str × Str) :=
  let line := if line.getLast? == some '\r' then line.dropLast else line
  if line.isEmpty || line.head? == some '#' then none
  else if line.any (· == ':') then
    some (line.takeWhile (· != ':'),
      ((line.dropWhile (· != ':')).drop 1).dropWhile fun c => c == ' ' || c == '\t')
  else none

abbrev KeyValues := List (Str × Str)

def keyValues (file : Str) : KeyValues := (Text.lines file).filterMap parseLine

/-- The last value of a key. -/
def KeyValues.find (kv : KeyValues) (key : Str) : Option Str :=
  Lookup.last key kv

def KeyValues.has (kv : KeyValues) (key : Str) : Bool := (kv.find key).isSome

/-! `none` of a reader is an exception. -/

def getInt (kv : KeyValues) (key : Str) (dflt : Int) : Option Int :=
  match kv.find key with
  | none => some dflt
  | some value => stoi value

def getUnsigned (kv : KeyValues) (key : Str) (dflt maximum : Nat) : Option Nat :=
  match kv.find key with
  | none => some dflt
  | some value =>
    let text := trimAsciiWhitespace value
    if text.isEmpty || !text.all Char.isDigit || decide (maximum < Nat.ofDigitChars 10 text 0) then
      none
    else some (Nat.ofDigitChars 10 text 0)

def getStr (kv : KeyValues) (key : Str) : Str := (kv.find key).getD []

section Loader

variable {F D : Type} (fl : Floats F D)

def getDouble (kv : KeyValues) (key : Str) (dflt : D) : Option D :=
  match kv.find key with
  | none => some dflt
  | some value => fl.stod value

/-- A piece without two coordinates is passed over. -/
def parsePoints : List Str → Option (Polygon F)
  | [] => some []
  | piece :: rest =>
    match Text.pieces ',' piece with
    | xStr :: yStr :: _ =>
      (fl.stof xStr).bind fun x =>
        (fl.stof yStr).bind fun y =>
          (parsePoints rest).map fun points => { x := x, y := y, z := fl.single.lit 0 } :: points
    | _ => parsePoints rest

def parsePolygonString (s : Str) : Option (Polygon F) := parsePoints fl (Text.pieces ';' s)

/-! ## Corridors -/

/-- A corridor, or `none` for one that is passed over. -/
def loadCorridor (kv : KeyValues) (i : Nat) : Option (Option (LidarIgnoreCorridorEntry F D)) :=
  let pre := indexed "lidar_corridor_" i
  (parsePolygonString fl (getStr kv (pre "_polyline"))).bind fun polyline =>
    if polyline.length < 2 then some none
    else
      (getDouble fl kv (pre "_width_m") (fl.double.lit (2 / 5))).bind fun width =>
        (getUnsigned kv (pre "_id") 0 UINT32_MAX).map fun id =>
          some
            { name := trimAsciiWhitespace (getStr kv (pre "_name"))
              polyline := polyline
              widthM :=
                fl.double.clamp width (kMinLidarIgnoreCorridorWidthM fl)
                  (kMaxLidarIgnoreCorridorWidthM fl)
              id := UInt32.ofNat id }

def loadCorridors (kv : KeyValues) : Nat → Nat → Option (List (LidarIgnoreCorridorEntry F D))
  | 0, _ => some []
  | n + 1, i =>
    (loadCorridor fl kv i).bind fun entry =>
      (loadCorridors kv n (i + 1)).map fun rest => entry.toList ++ rest

/-! ## Areas -/

def kvObstacle (kv : KeyValues) (key : Str) : Option (Polygon F × Str × UInt8) :=
  (parsePolygonString fl (getStr kv key)).bind fun polygon =>
    (getInt kv (key ++ "_source".toList) SOURCE_USER.toNat).map fun source =>
      (polygon, getStr kv (key ++ "_name".toList), UInt8.ofInt source)

/-- The obstacles of an area from the `j`-th on, and the state with their ids taken. -/
def loadObstacles (kv : KeyValues) (pre : Str) :
    Nat → Nat → MapServer F D → List (ObstacleEntry F) →
      MapServer F D × Option (List (ObstacleEntry F))
  | 0, _, σ, entries => (σ, some entries)
  | n + 1, j, σ, entries =>
    match kvObstacle fl kv (pre ++ indexed "_obstacle_" j "") with
    | none => (σ, none)
    | some (polygon, name, source) =>
      if decide (3 ≤ polygon.length) &&
          !hasDuplicateObstacleEntry fl entries polygon (kObstacleDedupEpsilonM fl) true then
        let made := makeObstacleEntry σ polygon name source false
        loadObstacles kv pre n (j + 1) made.2 (entries ++ [made.1])
      else loadObstacles kv pre n (j + 1) σ entries

/-- The presence of a key is the `has_*` flag. -/
def kvLines (kv : KeyValues) (key : String → Str) : Option (AreaCoverageLines D) :=
  let zero := fl.double.lit 0
  let hasMowAngle := kv.has (key "_mow_angle_deg")
  let hasStartPoint := kv.has (key "_start_x") && kv.has (key "_start_y")
  (if hasMowAngle then getDouble fl kv (key "_mow_angle_deg") zero else some zero).bind fun angle =>
  (getInt kv (key "_ring_direction") 0).bind fun ring =>
  (if hasStartPoint then getDouble fl kv (key "_start_x") zero else some zero).bind fun x =>
  (if hasStartPoint then getDouble fl kv (key "_start_y") zero else some zero).map fun y =>
    { hasMowAngle := hasMowAngle
      mowAngleDeg := angle
      hasRingDirection := kv.has (key "_ring_direction")
      ringDirection := UInt8.ofNat (if ring < 0 then 0 else if 255 < ring then 255 else ring.toNat)
      hasStartPoint := hasStartPoint
      startX := x
      startY := y }

/-- An area without its obstacles, and how many of those there are. -/
def kvArea (kv : KeyValues) (i : Nat) : Option (AreaEntry F D × Nat) :=
  let key := indexed "area_" i
  (parsePolygonString fl (getStr kv (key "_polygon"))).bind fun polygon =>
  (getInt kv (key "_is_navigation") 0).bind fun navigation =>
  (getInt kv (key "_id") 0).bind fun id =>
  (kvLines fl kv key).bind fun lines =>
  (getInt kv (key "_obstacle_count") 0).map fun count =>
    ({ name := getStr kv (key "_name")
       polygon := polygon
       obstacles := []
       isNavigationArea := decide (navigation ≠ 0)
       id := UInt32.ofInt id
       coverageLines := storedLines fl polygon lines },
      count.toNat)

/-- The areas from the `i`-th on. `false`: the load ended there. -/
def loadAreas (kv : KeyValues) : Nat → Nat → MapServer F D → MapServer F D × Bool
  | 0, _, σ => (σ, true)
  | n + 1, i, σ =>
    match kvArea fl kv i with
    | none => (σ, false)
    | some (entry, count) =>
      match loadObstacles fl kv (indexed "area_" i "") count 0 σ [] with
      | (σ, none) => (σ, false)
      | (σ, some obstacles) =>
        if 3 ≤ entry.polygon.length then
          loadAreas kv n (i + 1)
            { σ with areas := σ.areas ++ [{ entry with obstacles := obstacles }] }
        else loadAreas kv n (i + 1) σ

/-- Ids for the areas that have none. -/
def mintAreaIds (next : UInt32) : List (AreaEntry F D) → List (AreaEntry F D) × UInt32
  | [] => ([], next)
  | area :: areas =>
    if area.id == 0 then
      let rest := mintAreaIds (next + 1) areas
      ({ area with id := next } :: rest.1, rest.2)
    else
      let rest := mintAreaIds next areas
      (area :: rest.1, rest.2)

def maxAreaId (areas : List (AreaEntry F D)) : UInt32 :=
  areas.foldl (fun m area => if m < area.id then area.id else m) 0

/-- A save whose failure is only logged. -/
def saveBestEffort (σ : MapServer F D) (disk : Disk) : MapServer F D :=
  (saveAreasToFile fl σ false disk).getD σ

/-- `next_area_id` and the areas without an id. -/
def migrateAreaIds (kv : KeyValues) (σ : MapServer F D) (disk : Disk) :
    Option (MapServer F D) :=
  (getInt kv "next_area_id".toList 0).map fun next =>
    let maxId := maxAreaId σ.areas
    let next := UInt32.ofInt next
    let next := if next < maxId + 1 then maxId + 1 else next
    if σ.areas.any fun area => area.id == 0 then
      let minted := mintAreaIds next σ.areas
      saveBestEffort fl { σ with areas := minted.1, nextAreaId := minted.2 } disk
    else { σ with nextAreaId := next }

/-! ## The datum -/

def kDatumMatchEpsilonDeg : D := fl.double.lit (1 / 100000000)

def reprojectPolygon (here there : D × D) (polygon : Polygon F) : Polygon F :=
  polygon.map fun p =>
    let q := fl.reprojectEnu here there (fl.widen p.x, fl.widen p.y)
    { p with x := fl.narrow q.1, y := fl.narrow q.2 }

def reprojectLines (here there : D × D) (lines : AreaCoverageLines D) : AreaCoverageLines D :=
  if lines.hasStartPoint then
    let q := fl.reprojectEnu here there (lines.startX, lines.startY)
    { lines with startX := q.1, startY := q.2 }
  else lines

/-- Everything in metres, from the datum of the file to the one in effect. -/
def reproject (here there : D × D) (σ : MapServer F D) : MapServer F D :=
  { σ with
    areas := σ.areas.map fun area =>
      { area with
        polygon := reprojectPolygon fl here there area.polygon
        obstacles := area.obstacles.map fun obs =>
          { obs with polygon := reprojectPolygon fl here there obs.polygon }
        coverageLines := reprojectLines fl here there area.coverageLines }
    lidarIgnoreCorridors := σ.lidarIgnoreCorridors.map fun corridor =>
      { corridor with polyline := reprojectPolygon fl here there corridor.polyline } }

/-- `migrate_areas_datum`; the file without a stamp has no `stamp`. -/
def migrateAreasDatum (stamp : Option (D × D)) (σ : MapServer F D) (disk : Disk) :
    MapServer F D :=
  let d := fl.double
  let lat := σ.settings.datumLat
  let lon := σ.settings.datumLon
  if !isDatumSet fl lat lon then σ
  else
    match stamp with
    | none => saveBestEffort fl σ disk
    | some there =>
      if !(d.isFinite there.1 && d.isFinite there.2 && isDatumSet fl there.1 there.2) then
        saveBestEffort fl σ disk
      else if d.lt (d.abs (d.sub lat there.1)) (kDatumMatchEpsilonDeg fl) &&
          d.lt (d.abs (d.sub lon there.2)) (kDatumMatchEpsilonDeg fl) then σ
      else saveBestEffort fl (reproject fl there (lat, lon) σ) disk

/-- The stamp of a file; a coordinate it lacks is a NaN, which is not finite. -/
def datumStamp (kv : KeyValues) : Option (Option (D × D)) :=
  match kv.find "datum_lat".toList, kv.find "datum_lon".toList with
  | some lat, some lon =>
    (fl.stod lat).bind fun lat => (fl.stod lon).map fun lon => some (lat, lon)
  | some lat, none => (fl.stod lat).map fun _ => none
  | none, some lon => (fl.stod lon).map fun _ => none
  | none, none => some none

/-! ## The whole load -/

/-- The corridors of the file and the counter behind them. -/
def kvCorridors (kv : KeyValues) : Option (List (LidarIgnoreCorridorEntry F D) × Nat) :=
  (getInt kv "lidar_corridor_count".toList 0).bind fun count =>
  (loadCorridors fl kv count.toNat 0).bind fun corridors =>
  (getUnsigned kv "next_lidar_corridor_id".toList 1 (UINT32_MAX + 1)).map fun next =>
    (corridors, Fresh.past next (corridors.map fun c => c.id.toNat))

/-- `publish_lidar_ignore_corridors`. -/
def publishLidarIgnoreCorridors (σ : MapServer F D) : MapServer F D :=
  { σ with
    lidarIgnoreCorridorsPub := some σ.lidarIgnoreCorridors
    corridorPublicationPending := false }

/-- What is left when everything was read. -/
def finishLoad (kv : KeyValues) (σ : MapServer F D) (idDisk datumDisk : Disk) :
    MapServer F D × Bool :=
  match migrateAreaIds fl kv σ idDisk with
  | none => (σ, false)
  | some σ =>
    match datumStamp fl kv with
    | none => (σ, false)
    | some stamp =>
      (publishLidarIgnoreCorridors (resizeMapToAreas fl (migrateAreasDatum fl stamp σ datumDisk)),
        true)

/-- The load of what was parsed. -/
def loadKeyValues (kv : KeyValues) (σ : MapServer F D) (idDisk datumDisk : Disk) :
    MapServer F D × Bool :=
  match kvCorridors fl kv with
  | none => (σ, false)
  | some corridors =>
    let cleared := { σ with areas := [], obstaclePolygons := [] }
    match getInt kv "area_count".toList 0 with
    | none => (cleared, false)
    | some count =>
      match loadAreas fl kv count.toNat 0 cleared with
      | (σ, false) => (σ, false)
      | (σ, true) =>
        finishLoad fl kv
          { σ with lidarIgnoreCorridors := corridors.1, nextLidarCorridorId := corridors.2 }
          idDisk datumDisk

/-- `load_areas_from_file`. `false`: it threw, and this is what it left. The disks are those of
the two saves it may make. -/
def loadAreasFromFile (σ : MapServer F D) (idDisk datumDisk : Disk) : MapServer F D × Bool :=
  match σ.file with
  | none => (σ, false)
  | some file => loadKeyValues fl (keyValues file) σ idDisk datumDisk

end Loader

end Map
end Mowgli
