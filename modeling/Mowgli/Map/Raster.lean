import Mowgli.Lib.Arith

/-!
# Raster — the numbers of the map server, and the cells a polygon covers

A coordinate of a polygon is a `float`, everything else a `double`. The code is written over
the operations of both, whatever they round to; how the standard library prints and reads
numbers is given with them.

The geometry of `internal_helpers.hpp`, `area_coverage_lines.hpp` and `progress_tracker.cpp`
that the areas need follows.
-/

namespace Mowgli
namespace Map

abbrev Str := List Char

structure Floats (F D : Type) where
  single : Arith F
  double : Arith D
  /-- `static_cast<double>`. -/
  widen : F → D
  /-- `static_cast<float>`. -/
  narrow : D → F
  /-- `operator<<` with `setprecision`. -/
  showSingle : Nat → F → Str
  showDouble : Nat → D → Str
  /-- The same with `std::fixed`. -/
  showFixed : Nat → D → Str
  /-- `std::stof`; `none` when it throws. -/
  stof : Str → Option F
  stod : Str → Option D
  /-- Where `grid_map` puts the centres of a grid of a size, a resolution and a position: of its
  rows along x, and of its columns along y. -/
  cellAxes : D → D → D → D × D → List D × List D
  /-- `wgs84::ReprojectEnu`: a point east and north of one datum, seen from another. -/
  reprojectEnu : D × D → D × D → D × D → D × D

/-- `geometry_msgs/Point32`. -/
structure Point32 (F : Type) where
  x : F
  y : F
  z : F
deriving DecidableEq

/-- `geometry_msgs/Polygon`. -/
abbrev Polygon (F : Type) := List (Point32 F)

/-- The sides of a closed polygon, each with its start first. -/
def edges {P : Type} (points : List P) : List (P × P) :=
  (points.getLast?.toList ++ points).zip points

section Geometry

variable {F D : Type} (fl : Floats F D)

def kObstacleDedupEpsilonM : D := fl.double.lit (1 / 10)

def polygonCentroid (poly : Polygon F) : F × F :=
  let d := fl.double
  if poly.isEmpty then (fl.single.lit 0, fl.single.lit 0)
  else
    let sx := poly.foldl (fun s p => d.add s (fl.widen p.x)) (d.lit 0)
    let sy := poly.foldl (fun s p => d.add s (fl.widen p.y)) (d.lit 0)
    (fl.narrow (d.div sx (d.lit poly.length)), fl.narrow (d.div sy (d.lit poly.length)))

/-- The centroids of two polygons lie within `eps`. -/
def near (p q : Polygon F) (eps : D) : Bool :=
  let d := fl.double
  let c := polygonCentroid fl p
  let c' := polygonCentroid fl q
  d.le (d.hypot (d.sub (fl.widen c.1) (fl.widen c'.1)) (d.sub (fl.widen c.2) (fl.widen c'.2))) eps

def hasDuplicateObstacle (existing : List (Polygon F)) (candidate : Polygon F) (eps : D) : Bool :=
  existing.any fun poly => near fl poly candidate eps

def pointInPolygon (x y : F) (polygon : Polygon F) : Bool :=
  let s := fl.single
  if polygon.length < 3 then false
  else
    (edges polygon).foldl (fun inside e =>
      let above (p : Point32 F) : Bool := s.lt y p.y
      let meets := s.lt x (s.add (s.div (s.mul (s.sub e.1.x e.2.x) (s.sub y e.2.y))
        (s.sub e.1.y e.2.y)) e.2.x)
      if (above e.2 != above e.1) && meets then !inside else inside) false

def polygonPairs (polygon : Polygon F) : List (D × D) :=
  polygon.map fun p => (fl.widen p.x, fl.widen p.y)

def kMaxStartPointOutsideM : D := fl.double.lit 3

/-- How far a point is from a side. -/
def distanceToSide (x y : D) (a b : D × D) : D :=
  let d := fl.double
  let dx := d.sub b.1 a.1
  let dy := d.sub b.2 a.2
  let len2 := d.add (d.mul dx dx) (d.mul dy dy)
  let t := if d.lt len2 (d.lit (1 / 1000000000000)) then d.lit 0
    else d.clamp (d.div (d.add (d.mul (d.sub x a.1) dx) (d.mul (d.sub y a.2) dy)) len2)
      (d.lit 0) (d.lit 1)
  d.hypot (d.sub x (d.add a.1 (d.mul t dx))) (d.sub y (d.add a.2 (d.mul t dy)))

def startPointNearPolygon (polygon : List (D × D)) (x y : D) : Bool :=
  let d := fl.double
  if polygon.length < 3 then false
  else
    let inside := (edges polygon).foldl (fun inside e =>
      let meets := d.lt x (d.add (d.div (d.mul (d.sub e.1.1 e.2.1) (d.sub y e.2.2))
        (d.sub e.1.2 e.2.2)) e.2.1)
      if (d.lt y e.2.2 != d.lt y e.1.2) && meets then !inside else inside) false
    -- the nearest distance starts as infinity
    inside || (edges polygon).any fun e =>
      d.le (distanceToSide fl x y e.1 e.2) (kMaxStartPointOutsideM fl)

end Geometry

/-! ## Coverage lines -/

def kMaxRingDirection : UInt8 := 2

structure AreaCoverageLines (D : Type) where
  hasMowAngle : Bool
  mowAngleDeg : D
  hasRingDirection : Bool
  ringDirection : UInt8
  hasStartPoint : Bool
  startX : D
  startY : D
deriving DecidableEq

section Lines

variable {D : Type} (d : Arith D)

def kMowAngleAutoDeg : D := d.lit (-1)

/-- `AreaCoverageLines{}`. -/
def AreaCoverageLines.zero : AreaCoverageLines D :=
  { hasMowAngle := false, mowAngleDeg := d.lit 0, hasRingDirection := false, ringDirection := 0,
    hasStartPoint := false, startX := d.lit 0, startY := d.lit 0 }

def foldMowAngleDeg (deg : D) : D :=
  let folded := d.fmod deg (d.lit 180)
  let folded := if d.lt folded (d.lit 0) then d.add folded (d.lit 180) else folded
  if d.le (d.lit 180) folded then d.lit 0 else folded

/-- `CheckCoverageLines`: what is stored of a request, or why it is refused. -/
def checkCoverageLines (r : AreaCoverageLines D) : Except String (AreaCoverageLines D) :=
  if r.hasMowAngle && !d.isFinite r.mowAngleDeg then .error "mow_angle_deg must be a finite number"
  else if r.hasRingDirection && decide (kMaxRingDirection < r.ringDirection) then
    .error ("ring_direction must be 0 (planner default), 1 (clockwise) or 2 " ++
      "(counter-clockwise)")
  else if r.hasStartPoint && !(d.isFinite r.startX && d.isFinite r.startY) then
    .error "start point must be a finite pair of coordinates"
  else
    .ok
      { hasMowAngle := r.hasMowAngle
        mowAngleDeg :=
          if r.hasMowAngle then
            if d.lt r.mowAngleDeg (d.lit 0) then kMowAngleAutoDeg d
            else foldMowAngleDeg d r.mowAngleDeg
          else d.lit 0
        hasRingDirection := r.hasRingDirection
        ringDirection := if r.hasRingDirection then r.ringDirection else 0
        hasStartPoint := r.hasStartPoint
        startX := if r.hasStartPoint then r.startX else d.lit 0
        startY := if r.hasStartPoint then r.startY else d.lit 0 }

end Lines

/-!
## Which cells of the grid a polygon covers

`polygon_raster.hpp` and `closest_edge_point` of `internal_helpers.hpp`. The centres of the
cells come from `grid_map`.
-/

inductive CellType
  | UNKNOWN
  | LAWN
  | OBSTACLE_PERMANENT
  | OBSTACLE_TEMPORARY
  | NO_GO_ZONE
  | DOCKING_AREA
  | LAWN_DEAD
deriving DecidableEq

/-- The classification layer: by row and column. -/
abbrev Layer := Nat → Nat → CellType

structure CellAxes (D : Type) where
  xOfRow : List D
  yOfCol : List D

/-- Inclusive. -/
structure IndexRange where
  first : Int
  last : Int

def IndexRange.intersect (a b : IndexRange) : IndexRange :=
  { first := if a.first < b.first then b.first else a.first
    last := if a.last < b.last then a.last else b.last }

def IndexRange.contains (a : IndexRange) (i : Nat) : Bool :=
  decide (a.first ≤ i) && decide ((i : Int) ≤ a.last)

section Raster

variable {F D : Type} (fl : Floats F D)

/-- The indices of a decreasing axis between two values, and one more on each side. -/
def coveringRange (axis : List D) (lo hi : D) : IndexRange :=
  let d := fl.double
  if axis.isEmpty || !d.le lo hi then { first := 0, last := -1 }
  else
    let first : Int := (axis.takeWhile fun v => d.lt hi v).length - 1
    let last : Int := (axis.takeWhile fun v => d.le lo v).length
    let n : Int := axis.length
    { first := if first < 0 then 0 else first, last := if last < n - 1 then last else n - 1 }

/-- Where the line at `y` crosses the polygon, sorted. -/
def rowCrossings (polygon : Polygon F) (y : D) : List D :=
  let d := fl.double
  if polygon.length < 3 then []
  else
    ((edges polygon).filterMap fun e =>
      let xi := fl.widen e.2.x
      let yi := fl.widen e.2.y
      let xj := fl.widen e.1.x
      let yj := fl.widen e.1.y
      if d.lt y yi != d.lt y yj then
        some (d.add (d.div (d.mul (d.sub xj xi) (d.sub y yi)) (d.sub yj yi)) xi)
      else none).mergeSort fun a b => !d.lt b a

/-- An odd number of crossings lies to the right. -/
def insideRow (crossings : List D) (x : D) : Bool :=
  (crossings.dropWhile fun c => !fl.double.lt x c).length % 2 == 1

/-- `for_each_cell_inside` over the whole grid calls its function on this cell. -/
def cellInside (polygon : Polygon F) (axes : CellAxes D) (r c : Nat) : Bool :=
  let d := fl.double
  match polygon with
  | [] => false
  | p :: _ =>
    if polygon.length < 3 then false
    else
      let yMin := polygon.foldl (fun m q => d.min m (fl.widen q.y)) (fl.widen p.y)
      let yMax := polygon.foldl (fun m q => d.max m (fl.widen q.y)) (fl.widen p.y)
      let wholeCols : IndexRange := { first := 0, last := (axes.yOfCol.length : Int) - 1 }
      let wholeRows : IndexRange := { first := 0, last := (axes.xOfRow.length : Int) - 1 }
      (wholeCols.intersect (coveringRange fl axes.yOfCol yMin yMax)).contains c &&
        match axes.yOfCol[c]?, axes.xOfRow[r]? with
        | some y, some x =>
          let crossings := rowCrossings fl polygon y
          match crossings.head?, crossings.getLast? with
          | some front, some back =>
            (wholeRows.intersect (coveringRange fl axes.xOfRow front back)).contains r &&
              insideRow fl crossings x
          | _, _ => false
        | _, _ => false

def fill (axes : CellAxes D) (polygon : Polygon F) (value : CellType) (cls : Layer) : Layer :=
  fun r c => if cellInside fl polygon axes r c then value else cls r c

/-- `numeric_limits<double>::max()`. -/
def largestDouble : D := fl.double.lit (2 ^ 1024 - 2 ^ 970)

/-- The distance of a point from the sides of a polygon. -/
def pointToPolygonDistance (px py : D) (polygon : Polygon F) : D :=
  let d := fl.double
  if polygon.length < 2 then largestDouble fl
  else
    (edges polygon).foldl (fun best e =>
      let ax := fl.widen e.1.x
      let ay := fl.widen e.1.y
      let dx := d.sub (fl.widen e.2.x) ax
      let dy := d.sub (fl.widen e.2.y) ay
      let len2 := d.add (d.mul dx dx) (d.mul dy dy)
      let t := if d.lt (d.lit (1 / 1000000000000)) len2 then
          d.clamp (d.div (d.add (d.mul (d.sub px ax) dx) (d.mul (d.sub py ay) dy)) len2)
            (d.lit 0) (d.lit 1)
        else d.lit 0
      let distance := d.hypot (d.sub px (d.add ax (d.mul t dx))) (d.sub py (d.add ay (d.mul t dy)))
      if d.lt distance best then distance else best) (largestDouble fl)

end Raster

end Map
end Mowgli
