import Mathlib.Data.List.Destutter
import Mathlib.Data.List.Sort
import Mowgli.Lib.Arith

/-!
# Geometry — authorized ground

`transit_geometry.hpp`: rings of points, the union of the allowed ones, the blocked ones with a
margin around each, and what a point and a segment have to satisfy against both. Boundaries are
closed with `kEpsilon`.
-/

namespace Mowgli
namespace Transit

section

/-- What the geometry needs of `double` beside the arithmetic. -/
structure Format (D : Type) extends Arith D where
  infinity : D
  floor : D → D
  round : D → D
  /-- `nextafter(x, INFINITY)`. -/
  next : D → D
  /-- `static_cast<int>`, of a number that fits. -/
  toInt : D → Int
  /-- `static_cast<double>(static_cast<float>(x))`. -/
  throughFloat : D → D

structure Point (D : Type) where
  x : D
  y : D
  deriving DecidableEq

abbrev Ring (D : Type) := List (Point D)

variable {D : Type} (d : Format D)

def kEpsilon : D := d.lit (1 / 100000000)

def interpolate (a b : Point D) (t : D) : Point D :=
  ⟨d.add a.x (d.mul t (d.sub b.x a.x)), d.add a.y (d.mul t (d.sub b.y a.y))⟩

def cross (a b : Point D) : D := d.sub (d.mul a.x b.y) (d.mul a.y b.x)

def distance (a b : Point D) : D := d.hypot (d.sub a.x b.x) (d.sub a.y b.y)

def half (x y : D) : D := d.div (d.add x y) (d.lit 2)

def closestOnEdge (p a b : Point D) : Point D :=
  let e : Point D := ⟨d.sub b.x a.x, d.sub b.y a.y⟩
  let length2 := d.add (d.mul e.x e.x) (d.mul e.y e.y)
  let t :=
    if d.eq length2 (d.lit 0) then d.lit 0
    else
      d.clamp
        (d.div (d.add (d.mul (d.sub p.x a.x) e.x) (d.mul (d.sub p.y a.y) e.y)) length2)
        (d.lit 0) (d.lit 1)
  interpolate d a b t

def edgeDistance (p a b : Point D) : D := distance d p (closestOnEdge d p a b)

/-- The edges of a ring, from `ring[j]` to `ring[i]`, with the closing one first. -/
def edges (ring : Ring D) : List (Point D × Point D) := (ring.getLast?.toList ++ ring).zip ring

def onEdge (p a b : Point D) : Bool :=
  d.le (d.sub (d.min a.x b.x) (kEpsilon d)) p.x && d.le p.x (d.add (d.max a.x b.x) (kEpsilon d)) &&
    d.le (d.sub (d.min a.y b.y) (kEpsilon d)) p.y &&
    d.le p.y (d.add (d.max a.y b.y) (kEpsilon d)) && d.le (edgeDistance d p a b) (kEpsilon d)

/-- Where an edge crosses the row of a point. -/
def crossing (py : D) (a b : Point D) : D :=
  d.add a.x (d.div (d.mul (d.sub py a.y) (d.sub b.x a.x)) (d.sub b.y a.y))

def spansRow (py : D) (a b : Point D) : Bool := d.lt py a.y != d.lt py b.y

def inside (p : Point D) (ring : Ring D) : Bool :=
  if ring.length < 3 || !d.isFinite p.x || !d.isFinite p.y then false
  else
    (edges ring).any (fun e => onEdge d p e.1 e.2) ||
      (edges ring).foldl (fun result e =>
        if spansRow d p.y e.1 e.2 && d.lt p.x (crossing d p.y e.1 e.2) then !result else result)
        false

def ringDistance (p : Point D) (ring : Ring D) : D :=
  if inside d p ring then d.lit 0
  else (edges ring).foldl (fun result e => d.min result (edgeDistance d p e.1 e.2)) d.infinity

/-- The corners of the box around a ring. -/
def bounds (ring : Ring D) : Point D × Point D :=
  ring.foldl
    (fun box p => (⟨d.min box.1.x p.x, d.min box.1.y p.y⟩, ⟨d.max box.2.x p.x, d.max box.2.y p.y⟩))
    (⟨d.infinity, d.infinity⟩, ⟨d.neg d.infinity, d.neg d.infinity⟩)

/-- A ring that is provably far from a segment. -/
def remoteRing (a b : Point D) (ring : Ring D) (margin : D) : Bool :=
  let box := bounds d ring
  let magnitude :=
    [d.abs box.1.y, d.abs box.2.x, d.abs box.2.y, d.abs a.x, d.abs a.y, d.abs b.x, d.abs b.y,
      d.abs margin].foldl d.max (d.abs box.1.x)
  let padding :=
    d.add (d.max (d.lit 0) margin) (d.mul (d.lit 8) (d.sub (d.next magnitude) magnitude))
  d.isFinite padding &&
    (d.lt (d.max a.x b.x) (d.sub box.1.x padding) || d.lt (d.add box.2.x padding) (d.min a.x b.x) ||
      d.lt (d.max a.y b.y) (d.sub box.1.y padding) || d.lt (d.add box.2.y padding) (d.min a.y b.y))

def between (x lo hi : D) : Bool := d.le lo x && d.le x hi

def sorted (ts : List D) : List D := ts.insertionSort fun x y => d.le x y = true

/-- Where a segment meets one edge, as parts of its length. -/
def edgeCuts (a b : Point D) (edge : Point D × Point D) : List D :=
  let along : Point D := ⟨d.sub b.x a.x, d.sub b.y a.y⟩
  let length2 := d.add (d.mul along.x along.x) (d.mul along.y along.y)
  let e : Point D := ⟨d.sub edge.2.x edge.1.x, d.sub edge.2.y edge.1.y⟩
  let q : Point D := ⟨d.sub edge.1.x a.x, d.sub edge.1.y a.y⟩
  let denominator := cross d along e
  if d.lt (kEpsilon d) (d.abs denominator) then
    let t := d.div (cross d q e) denominator
    let u := d.div (cross d q along) denominator
    if between d t (d.lit 0) (d.lit 1) && between d u (d.lit 0) (d.lit 1) then [t] else []
  else if d.lt (d.lit 0) length2 && d.le (d.abs (cross d q along)) (kEpsilon d) then
    [edge.1, edge.2].map fun p =>
      d.clamp
        (d.div (d.add (d.mul (d.sub p.x a.x) along.x) (d.mul (d.sub p.y a.y) along.y)) length2)
        (d.lit 0) (d.lit 1)
  else []

/-- Every place where a segment meets a ring, its ends included. -/
def cuts (a b : Point D) (rings : List (Ring D)) : List D :=
  (sorted d ([d.lit 0, d.lit 1] ++ rings.flatMap fun ring => (edges ring).flatMap (edgeCuts d a b))
    ).destutter fun x y => d.eq x y = false

/-- The middles of the open intervals between cuts. -/
def middles (a b : Point D) (ts : List D) : List (Point D) :=
  (ts.zip ts.tail).map fun t => interpolate d a b (half d t.1 t.2)

def areaCentroid (ring : Ring D) : Option (Point D) :=
  let sums := (edges ring).foldl (fun (sums : D × Point D) e =>
    let c := cross d e.1 e.2
    (d.add sums.1 c, ⟨d.add sums.2.x (d.mul (d.add e.1.x e.2.x) c),
      d.add sums.2.y (d.mul (d.add e.1.y e.2.y) c)⟩)) (d.lit 0, ⟨d.lit 0, d.lit 0⟩)
  if ring.length < 3 || !d.lt (kEpsilon d) (d.abs sums.1) || !d.isFinite sums.1 then none
  else
    let area3 := d.mul (d.lit 3) sums.1
    some ⟨d.div sums.2.x area3, d.div sums.2.y area3⟩

/-- The frame of the dock, with the charging station in front. -/
structure DockFrame (D : Type) where
  origin : Point D
  axis : Point D

def DockFrame.local (f : DockFrame D) (p : Point D) : Point D :=
  let e : Point D := ⟨d.sub p.x f.origin.x, d.sub p.y f.origin.y⟩
  ⟨d.add (d.mul e.x f.axis.x) (d.mul e.y f.axis.y),
    d.add (d.mul (d.neg e.x) f.axis.y) (d.mul e.y f.axis.x)⟩

def kDockRingAdjacency : D := d.lit (2 / 100)

def dockFrame (body corridor : Ring D) : Option (DockFrame D) :=
  (areaCentroid d body).bind fun bodyCentre =>
  (areaCentroid d corridor).bind fun corridorCentre =>
    let offset : Point D :=
      ⟨d.sub bodyCentre.x corridorCentre.x, d.sub bodyCentre.y corridorCentre.y⟩
    let length := d.hypot offset.x offset.y
    if !d.isFinite length || !d.lt (kEpsilon d) length then none
    else
      let axis : Point D := ⟨d.div offset.x length, d.div offset.y length⟩
      let along (p : Point D) : D :=
        d.add (d.mul (d.sub p.x bodyCentre.x) axis.x) (d.mul (d.sub p.y bodyCentre.y) axis.y)
      let front (ring : Ring D) : D :=
        ring.foldl (fun result p => d.max result (along p)) (d.neg d.infinity)
      let bodyRear := body.foldl (fun result p => d.min result (along p)) d.infinity
      -- Anything else is not the layout of the map server.
      if d.lt (kDockRingAdjacency d) (d.abs (d.sub (front corridor) bodyRear)) then none
      else
        some
          { origin := ⟨d.add bodyCentre.x (d.mul (front body) axis.x),
              d.add bodyCentre.y (d.mul (front body) axis.y)⟩
            axis := axis }

structure Geometry (D : Type) where
  allowed : List (Ring D) := []
  blocked : List (Ring D) := []
  blockedMargins : List D := []
  /-- The rings that a start may lie inside; a missing entry is none. -/
  startExempt : List Bool := []
  dock : Option (DockFrame D) := none
  obstacleMargin : D

namespace Geometry

variable (g : Geometry D)

def margin (i : Nat) : D := g.blockedMargins.getD i g.obstacleMargin

def isStartExempt (i : Nat) : Bool := g.startExempt.getD i false

def insideStartExempt (p : Point D) : Bool :=
  g.blocked.zipIdx.any fun ring => g.isStartExempt ring.2 && inside d p ring.1

def withoutStartExempt : Geometry D :=
  let kept := g.blocked.zipIdx.filter fun ring => !g.isStartExempt ring.2
  { allowed := g.allowed
    blocked := kept.map (·.1)
    blockedMargins := kept.map fun ring => g.margin ring.2
    dock := g.dock
    obstacleMargin := g.obstacleMargin }

def authorized (p : Point D) : Bool := g.allowed.any (inside d p)

def clear (p : Point D) : Bool :=
  g.blocked.zipIdx.all fun ring =>
    !d.le (ringDistance d p ring.1) (d.add (g.margin ring.2) (kEpsilon d))

/-- The rings whose boxes overlap that of another, or do not. -/
def overlapping (remote : Bool) (current : Ring D) (rings : List (Ring D)) : List (Ring D) :=
  let box := bounds d current
  rings.filter fun ring =>
    remoteRing d box.1 box.2 ring (d.mul (d.lit 2) (kEpsilon d)) == remote

theorem overlapping_length (current : Ring D) (rings : List (Ring D)) :
    (overlapping d true current rings).length + (overlapping d false current rings).length =
      rings.length := by
  have hnot : ∀ remote : Bool, (remote == false) = !(remote == true) := by decide
  unfold overlapping
  simp only [hnot]
  exact (List.length_eq_length_filter_add _).symm

/-- The search over overlapping boxes: `pending` is a stack, `unvisited` the rest. -/
def reaches (goal : Point D) (unvisited pending : List (Ring D)) : Bool :=
  match pending with
  | [] => false
  | current :: pending =>
    if inside d goal current then true
    else
      reaches goal (overlapping d true current unvisited)
        ((overlapping d false current unvisited).reverse ++ pending)
  termination_by unvisited.length + pending.length
  decreasing_by
    have hsum := overlapping_length d current unvisited
    simp only [List.length_append, List.length_reverse, List.length_cons]
    omega

/-- A preflight that only refuses. -/
def boundsMayConnect (start goal : Point D) : Bool :=
  if g.allowed.length ≤ 1 then !g.allowed.isEmpty
  else
    g.allowed.any (fun ring => inside d start ring && inside d goal ring) ||
      reaches d goal (g.allowed.filter (!inside d start ·))
        (g.allowed.filter (inside d start)).reverse

def segmentAuthorized (a b : Point D) : Bool :=
  g.authorized d a && g.authorized d b &&
    (middles d a b (cuts d a b g.allowed)).all (g.authorized d)

def segmentClear (a b : Point D) : Bool :=
  g.clear d a && g.clear d b &&
    g.blocked.zipIdx.all fun ring =>
      let margin := d.add (g.margin ring.2) (kEpsilon d)
      !decide (2 < (cuts d a b [ring.1]).length) &&
        (remoteRing d a b ring.1 margin ||
          (edges ring.1).all fun e =>
            !d.le
              ([edgeDistance d b e.1 e.2, edgeDistance d e.1 a b, edgeDistance d e.2 a b].foldl
                d.min (edgeDistance d a e.1 e.2))
              margin)

/-! A leg that starts outside the union enters it once, at the only nearest point of its
boundary. -/

/-- The nearest boundary point so far, or `none` where there are two. -/
def nearestOnEdge (endpoint : Point D) (nearest : D) (found : Option (Point D))
    (e : Point D × Point D) : Option (Option (Point D)) :=
  let q := closestOnEdge d endpoint e.1 e.2
  if d.lt (kEpsilon d) (d.abs (d.sub (distance d endpoint q) nearest)) then some found
  else
    match found with
    | none => some (some q)
    | some point => if d.lt (kEpsilon d) (distance d q point) then none else some (some point)

/-- One interval of the leg: whether the union has been entered. -/
def enterStep (endpoint anchor : Point D) (outsideLimit : D) (inIntended : Point D → Bool)
    (entered : Bool) (t : D × D) : Option Bool :=
  let into := inIntended (interpolate d endpoint anchor (half d t.1 t.2))
  if entered && !into then none
  else if !into && d.lt outsideLimit (distance d endpoint (interpolate d endpoint anchor t.2)) then
    none
  else some (entered || into)

def terminal (endpoint anchor : Point D) (outsideLimit : D) : Bool :=
  if g.authorized d endpoint then
    g.segmentAuthorized d endpoint anchor && g.segmentClear d endpoint anchor
  else
    let nearest :=
      g.allowed.foldl (fun nearest ring => d.min nearest (ringDistance d endpoint ring)) d.infinity
    if !d.isFinite nearest || d.lt outsideLimit nearest then false
    else
      let intended := g.allowed.filter fun ring =>
        !d.lt (kEpsilon d) (d.abs (d.sub (ringDistance d endpoint ring) nearest))
      match (intended.flatMap edges).foldlM (nearestOnEdge d endpoint nearest) none with
      | none => false
      | some found =>
        let inIntended (p : Point D) : Bool := intended.any (inside d p)
        if !found.isSome || !inIntended anchor || !g.segmentClear d endpoint anchor then false
        else
          let ts := cuts d endpoint anchor intended
          ((ts.zip ts.tail).foldlM (enterStep d endpoint anchor outsideLimit inIntended) false
            ).getD false

end Geometry

end

/-!
## The authorized cells of a grid

`transit_raster.hpp`: the cells whose centres the geometry authorizes, found ring by ring. A ring
visits the cells inside it and the cells near its edges, and a visit sets or clears the cell.
-/

variable {D : Type} (d : Format D)

structure RasterGrid (D : Type) where
  width : Nat
  height : Nat
  resolution : D
  originX : D
  originY : D

namespace RasterGrid

variable (grid : RasterGrid D)

def centre (x y : Nat) : Point D :=
  ⟨d.add grid.originX (d.mul (d.add (d.lit x) (d.lit (1 / 2))) grid.resolution),
    d.add grid.originY (d.mul (d.add (d.lit y) (d.lit (1 / 2))) grid.resolution)⟩

/-- The candidate cells along one axis. -/
def range (lo hi origin : D) (size : Nat) : List Nat :=
  if d.le grid.resolution (d.sub (d.next origin) origin) then List.range size
  else
    -- One extra cell absorbs the rounding.
    let last := d.lit ((size - 1 : Nat) : ℚ)
    let cell (x : D) : Nat := (d.toInt (d.clamp x (d.lit 0) last)).toNat
    let first := cell (d.sub (d.floor (d.div (d.sub lo origin) grid.resolution)) (d.lit 1))
    List.range' first
      (cell (d.add (d.floor (d.div (d.sub hi origin) grid.resolution)) (d.lit 1)) + 1 - first)

end RasterGrid

/-- The cells that `rasterInside` visits. -/
def rasterInside (ring : Ring D) (grid : RasterGrid D) : List (Nat × Nat) :=
  if ring.length < 3 then []
  else
    let box := bounds d ring
    (grid.range d box.1.y box.2.y grid.originY grid.height).flatMap fun y =>
      let py := (grid.centre d 0 y).y
      let crossings := (edges ring).filter (fun e => spansRow d py e.1 e.2) |>.map fun e =>
        crossing d py e.1 e.2
      let finite := crossings.all d.isFinite
      (grid.range d box.1.x box.2.x grid.originX grid.width).filter (fun x =>
        let p := grid.centre d x y
        -- The crossings past `std::upper_bound`.
        if finite then crossings.countP (fun c => d.lt p.x c) % 2 == 1 else inside d p ring)
        |>.map fun x => (x, y)

/-- The cells that `rasterEdges` visits. -/
def rasterEdges (ring : Ring D) (grid : RasterGrid D) (radius : D) (closedBoundary : Bool) :
    List (Nat × Nat) :=
  (edges ring).flatMap fun e =>
    let a := e.1
    let b := e.2
    let x0 := d.sub (d.min a.x b.x) radius
    let x1 := d.add (d.max a.x b.x) radius
    let y0 := d.sub (d.min a.y b.y) radius
    let y1 := d.add (d.max a.y b.y) radius
    (grid.range d y0 y1 grid.originY grid.height).flatMap fun y =>
      (grid.range d x0 x1 grid.originX grid.width).filter (fun x =>
        let p := grid.centre d x y
        let inBox := between d p.x x0 x1 && between d p.y y0 y1
        (!closedBoundary || inBox) && d.le (edgeDistance d p a b) radius)
        |>.map fun x => (x, y)

def mark (value : Bool) (allowed : Nat → Nat → Bool) (cells : List (Nat × Nat)) :
    Nat → Nat → Bool :=
  cells.foldl
    (fun allowed cell => fun x y => if x = cell.1 ∧ y = cell.2 then value else allowed x y) allowed

def rasterAuthorization (g : Geometry D) (grid : RasterGrid D) : Nat → Nat → Bool :=
  let allowed := g.allowed.foldl
    (fun allowed ring =>
      mark true (mark true allowed (rasterInside d ring grid))
        (rasterEdges d ring grid (kEpsilon d) true))
    fun _ _ => false
  g.blocked.zipIdx.foldl
    (fun allowed ring =>
      mark false (mark false allowed (rasterInside d ring.1 grid))
        (rasterEdges d ring.1 grid (d.add (g.margin ring.2) (kEpsilon d)) false))
    allowed

end Transit
end Mowgli
