import Mowgli.Map.Areas

/-!
# File — the classification of the cells, and areas.dat

The grid follows the areas: `resize_map_to_areas` fits it around their polygons, which empties
it, and `apply_area_classifications` fills it again. Proposals are passed over.
-/

namespace Mowgli
namespace Map

section Layer

variable {F D : Type} (fl : Floats F D)

def emptyLayer : Layer := fun _ _ => .UNKNOWN

/-- `clear_map_layers`. -/
def clearMapLayers (σ : MapServer F D) : MapServer F D :=
  { σ with grid := { σ.grid with classification := emptyLayer } }

def gridAxes (σ : MapServer F D) : CellAxes D :=
  let axes := fl.cellAxes σ.grid.sizeX σ.grid.sizeY σ.settings.resolution σ.grid.position
  { xOfRow := axes.1, yOfCol := axes.2 }

/-- The keepouts of an area that are in force. -/
def applied (obstacles : List (ObstacleEntry F)) : List (ObstacleEntry F) :=
  obstacles.filter fun obs => !obs.pending

/-- An area over its obstacles, in that order. -/
def classifyArea (axes : CellAxes D) (cls : Layer) (area : AreaEntry F D) : Layer :=
  (applied area.obstacles).foldl (fun cls obstacle => fill fl axes obstacle.polygon .NO_GO_ZONE cls)
    (fill fl axes area.polygon .LAWN cls)

/-- The dock goes last; its body wins over the lane before it. -/
def classifyDock (axes : CellAxes D) (dock : Option (DockGeometry F)) (cls : Layer) : Layer :=
  match dock with
  | none => cls
  | some dock =>
    let body := fill fl axes dock.bodyPolygon .OBSTACLE_PERMANENT cls
    fun r c =>
      if cellInside fl dock.corridorPolygon axes r c && body r c != .OBSTACLE_PERMANENT then
        .DOCKING_AREA
      else body r c

def applyAreaClassifications (σ : MapServer F D) : MapServer F D :=
  let axes := gridAxes fl σ
  { σ with
    grid :=
      { σ.grid with
        classification :=
          classifyDock fl axes σ.dock (σ.areas.foldl (classifyArea fl axes) σ.grid.classification)
        classificationDirty := false } }

def ensureClassificationCurrent (σ : MapServer F D) : MapServer F D :=
  if σ.grid.classificationDirty then applyAreaClassifications fl σ else σ

/-- The smallest and the largest of some numbers, if there are any. -/
def extent (values : List D) : Option (D × D) :=
  match values with
  | [] => none
  | v :: rest => some (rest.foldl fl.double.min v, rest.foldl fl.double.max v)

/-- Every point the grid has to hold. -/
def gridPoints (areas : List (AreaEntry F D)) (dock : Option (DockGeometry F)) :
    List (Point32 F) :=
  areas.flatMap (·.polygon) ++
    match dock with
    | none => []
    | some dock => dock.bodyPolygon ++ dock.corridorPolygon

def nonFiniteMessage : Str := "Garden geometry has a non-finite coordinate; transit disabled".toList

def gridError (resolution maxGridCells cells : D) : Str :=
  "Garden grid requires ".toList ++ fl.showFixed 6 cells ++ " cells at ".toList ++
    fl.showFixed 6 resolution ++ " m; max_grid_cells=".toList ++ fl.showFixed 0 maxGridCells ++
    "; transit disabled (no coarsening or truncation)".toList

/-- `resize_map_to_areas`. -/
def resizeMapToAreas (σ : MapServer F D) : MapServer F D :=
  let d := fl.double
  let grid := { σ.grid with planningGridError := [] }
  if σ.areas.isEmpty then { σ with grid := grid }
  else
    let points := gridPoints σ.areas σ.dock
    let finite := points.filter fun p => fl.single.isFinite p.x && fl.single.isFinite p.y
    if finite.length < points.length then
      { σ with grid := { grid with planningGridError := nonFiniteMessage } }
    else
      match extent fl (finite.map fun p => fl.widen p.x),
          extent fl (finite.map fun p => fl.widen p.y) with
      | some x, some y =>
        let margin := d.mul (d.lit 2) (d.lit 5)
        let newSizeX := d.add (d.sub x.2 x.1) margin
        let newSizeY := d.add (d.sub y.2 y.1) margin
        let centerX := d.mul (d.add x.1 x.2) (d.lit (1 / 2))
        let centerY := d.mul (d.add y.1 y.2) (d.lit (1 / 2))
        let resolution := σ.settings.resolution
        let limit := σ.settings.maxGridCells
        let nx := d.ceil (d.div newSizeX resolution)
        let ny := d.ceil (d.div newSizeY resolution)
        if !d.isFinite nx || !d.isFinite ny || d.le nx (d.lit 0) || d.le ny (d.lit 0) ||
            d.lt limit nx || d.lt limit ny || d.lt limit (d.mul nx ny) then
          { σ with
            grid := { grid with planningGridError := gridError fl resolution limit (d.mul nx ny) } }
        else if d.lt (d.abs (d.sub newSizeX grid.sizeX)) resolution &&
            d.lt (d.abs (d.sub newSizeY grid.sizeY)) resolution &&
            d.lt (d.abs (d.sub centerX grid.position.1)) (d.mul resolution (d.lit (1 / 2))) &&
            d.lt (d.abs (d.sub centerY grid.position.2)) (d.mul resolution (d.lit (1 / 2))) then
          { σ with grid := grid }
        else
          { σ with
            grid :=
              { grid with
                sizeX := newSizeX
                sizeY := newSizeY
                position := (centerX, centerY)
                classification := emptyLayer } }
      -- there is no point at all
      | _, _ => { σ with grid := grid }

end Layer

/-!
## How areas.dat is written

`write_areas_candidate` of `area_manager.cpp`. The text is a list of lines, most of them a key
and a value. It is written to a sibling file first; what the disk does decides whether that
one replaces the old. The copy that is kept as `.bak` is best effort and not followed.
-/

inductive Line
  | pair (key value : Str)
  | text (s : Str)

def Line.render : Line → Str
  | .pair key value => key ++ ':' :: ' ' :: value ++ ['\n']
  | .text s => s ++ ['\n']

def render (lines : List Line) : Str := lines.flatMap Line.render

/-- A key of an indexed entry. -/
def indexed (stem : String) (i : Nat) (field : String) : Str :=
  stem.toList ++ Text.decimal i ++ field.toList

section Writer

variable {F D : Type} (fl : Floats F D)

def kDatumUnsetEpsilonDeg : D := fl.double.lit (1 / 1000000000)

def isDatumSet (lat lon : D) : Bool :=
  let d := fl.double
  d.lt (kDatumUnsetEpsilonDeg fl) (d.abs lat) || d.lt (kDatumUnsetEpsilonDeg fl) (d.abs lon)

def polygonToString (poly : Polygon F) (precision : Nat) : Str :=
  Text.joined ';' (poly.map fun p => fl.showSingle precision p.x ++ ',' :: fl.showSingle precision p.y)

def obstacleLines (prefix' : Str) (j : Nat) (obs : ObstacleEntry F) : List Line :=
  let key := prefix' ++ indexed "_obstacle_" j ""
  [.pair key (polygonToString fl obs.polygon 6)] ++
    (if obs.name.isEmpty then [] else [.pair (key ++ "_name".toList) obs.name]) ++
    if obs.source == SOURCE_USER then []
    else [.pair (key ++ "_source".toList) (Text.decimal obs.source.toNat)]

/-- The entries of a list with the lines of each. -/
def indexedLines {α : Type} (lines : Nat → α → List Line) (i : Nat) : List α → List Line
  | [] => []
  | a :: as => lines i a ++ indexedLines lines (i + 1) as

def coverageLines (key : String → Str) (lines : AreaCoverageLines D) : List Line :=
  (if lines.hasMowAngle then [.pair (key "_mow_angle_deg") (fl.showDouble 6 lines.mowAngleDeg)]
    else []) ++
  (if lines.hasRingDirection then
    [.pair (key "_ring_direction") (Text.decimal lines.ringDirection.toNat)] else []) ++
  if lines.hasStartPoint then
    [.pair (key "_start_x") (fl.showFixed 3 lines.startX),
      .pair (key "_start_y") (fl.showFixed 3 lines.startY)]
  else []

/-- Proposals are not written, and not counted. -/
def areaLines (i : Nat) (area : AreaEntry F D) : List Line :=
  let key := indexed "area_" i
  [.pair (key "_name") area.name,
    .pair (key "_polygon") (polygonToString fl area.polygon 6),
    .pair (key "_is_navigation") (if area.isNavigationArea then ['1'] else ['0']),
    .pair (key "_id") (Text.decimal area.id.toNat)] ++
  coverageLines fl key area.coverageLines ++
  [.pair (key "_obstacle_count") (Text.decimal (applied area.obstacles).length)] ++
  indexedLines (obstacleLines fl (key "")) 0 (applied area.obstacles) ++
  [.text []]

def corridorLines (i : Nat) (corridor : LidarIgnoreCorridorEntry F D) : List Line :=
  let key := indexed "lidar_corridor_" i
  [.pair (key "_name") corridor.name,
    .pair (key "_polyline") (polygonToString fl corridor.polyline 9),
    .pair (key "_width_m") (fl.showDouble 17 corridor.widthM),
    .pair (key "_id") (Text.decimal corridor.id.toNat)]

def datumLines (lat lon : D) : List Line :=
  if isDatumSet fl lat lon then
    [.pair "datum_lat".toList (fl.showFixed 9 lat), .pair "datum_lon".toList (fl.showFixed 9 lon),
      .text []]
  else []

def fileLines (σ : MapServer F D) (corridors : List (LidarIgnoreCorridorEntry F D))
    (nextCorridorId : Nat) : List Line :=
  [.text "# Mowgli ROS2 — Persisted areas and docking point".toList,
    .text "# Auto-generated by map_server_node. Do not edit manually.".toList, .text []] ++
  datumLines fl σ.settings.datumLat σ.settings.datumLon ++
  [.pair "area_count".toList (Text.decimal σ.areas.length),
    .pair "next_area_id".toList (Text.decimal σ.nextAreaId.toNat), .text []] ++
  indexedLines (areaLines fl) 0 σ.areas ++
  [.pair "lidar_corridor_count".toList (Text.decimal corridors.length),
    .pair "next_lidar_corridor_id".toList (Text.decimal nextCorridorId), .text []] ++
  indexedLines (corridorLines fl) 0 corridors ++
  if corridors.isEmpty then [] else [.text []]

/-- What areas.dat holds for a state with other corridors. -/
def areasText (σ : MapServer F D) (corridors : List (LidarIgnoreCorridorEntry F D))
    (nextCorridorId : Nat) : Str :=
  render (fileLines fl σ corridors nextCorridorId)

/-- `std::stoi`; `none` when it throws. -/
def stoi (s : Str) : Option Int :=
  let s := Text.skipSpace s
  let number (negative : Bool) (digits : Str) : Option Int :=
    (Text.digits digits).bind fun r =>
      let n : Int := if negative then -r.1 else r.1
      if -2147483648 ≤ n ∧ n ≤ 2147483647 then some n else none
  match s with
  | '-' :: rest => number true rest
  | '+' :: rest => number false rest
  | rest => number false rest

def countAreasInFile (file : Option Str) : Int :=
  match (Text.lines (file.getD [])).find? fun line => "area_count:".toList.isPrefixOf line with
  | none => 0
  | some line => max 0 ((stoi (line.drop 11)).getD 0)

/-- What the disk does to one write. -/
inductive Disk
  | cannotOpen
  | full
  | cannotFlush (reason : Str)
  | cannotRename (reason : Str)
  /-- The file is replaced; its directory may not be synced. -/
  | replaced (synced : Bool)

/-- `write_areas_candidate`: the new content and whether it is durable, or what is thrown. -/
def writeAreasCandidate (σ : MapServer F D) (allowEmptyOverwrite : Bool)
    (corridors : List (LidarIgnoreCorridorEntry F D)) (nextCorridorId : Nat) (disk : Disk) :
    Except Str (Str × Bool) :=
  let tmp := σ.settings.areasFilePath ++ ".tmp".toList
  let onDisk := countAreasInFile σ.file
  match disk with
  | .cannotOpen => .error ("Cannot open ".toList ++ tmp ++ " for writing".toList)
  | .full => .error ("Writing ".toList ++ tmp ++ " failed (disk full?)".toList)
  | disk =>
    if σ.areas.isEmpty && decide (0 < onDisk) && !allowEmptyOverwrite then
      .error ("refusing to replace ".toList ++ σ.settings.areasFilePath ++ " (".toList ++
        Text.decimal onDisk.toNat ++
        " area(s)) by an empty map; only an explicit save_areas may".toList)
    else
      match disk with
      | .cannotFlush reason => .error ("Cannot flush ".toList ++ tmp ++ ": ".toList ++ reason)
      | .cannotRename reason =>
        .error ("Cannot replace ".toList ++ σ.settings.areasFilePath ++ ": ".toList ++ reason)
      | .replaced synced => .ok (areasText fl σ corridors nextCorridorId, synced)
      | _ => .error []

/-- `save_areas_to_file`; `none` when it threw. -/
def saveAreasToFile (σ : MapServer F D) (allowEmptyOverwrite : Bool) (disk : Disk) :
    Option (MapServer F D) :=
  match writeAreasCandidate fl σ allowEmptyOverwrite σ.lidarIgnoreCorridors σ.nextLidarCorridorId
    disk with
  | .ok (text, _) => some { σ with file := some text }
  | .error _ => none

end Writer

end Map
end Mowgli
