import Mathlib.Data.List.Sort
import Mowgli.Lib.Arith
import Mowgli.Lib.Numeral

/-!
# Tracker — obstacles that are tracked, merged, promoted, saved and loaded

`obstacle_tracker_node.cpp`, from the clusters on: what becomes of the tracked list when clusters,
a boundary, a tick of the timer or a request of a service comes in. The doubles are those of any
format. A callback that throws where nothing catches takes the node down.

Both sorts order a point by more than the sorts are asked to; which of two equal points comes
first is left to them in the source.
-/

namespace Mowgli
namespace Obstacles

abbrev Str := List Char

structure Doubles (D : Type) where
  arith : Arith D
  /-- The number a finite double holds. -/
  value : D → Option ℚ
  /-- `std::signbit`. -/
  negative : D → Bool
  isNan : D → Bool
  nan : Bool → D
  infinity : Bool → D
  /-- The double of a sign nearest to a number; `none` where `strtod` reports a range error. -/
  nearest : Bool → ℚ → Option D
  /-- `std::numeric_limits<double>::max()`. -/
  maximum : D
  atan2 : D → D → D
  floor : D → D
  /-- `static_cast<int32_t>`, truncation where the type holds it. -/
  toInt32 : D → Int
  toUInt32 : D → Nat

section Numbers

variable {D : Type} (fl : Doubles D)

def isfinite (x : D) : Bool := (fl.value x).isSome

/-- A sign, and the digits or the word after it. -/
def signedText (x : D) (digits : ℚ → Str) : Str :=
  let text :=
    match fl.value x with
    | some q => digits |q|
    | none => if fl.isNan x then ['n', 'a', 'n'] else ['i', 'n', 'f']
  if fl.negative x then '-' :: text else text

/-- `operator<<` of a stream, before `std::fixed` and after it. -/
def shown (fixed : Bool) (x : D) : Str :=
  signedText fl x (if fixed then Text.fixed 6 else Text.general 5)

/-- `std::stod`; `none` when it throws. -/
def stod (s : Str) : Option D :=
  match Text.strtod s with
  | none => none
  | some (.nan negative) => some (fl.nan negative)
  | some (.infinity negative) => some (fl.infinity negative)
  | some (.number negative q) => fl.nearest negative q

end Numbers

/-- `std::stoul` into a `uint32_t`. -/
def stoul (s : Str) : Option UInt32 := (Text.unsigned (2 ^ 64) s).map fun r => UInt32.ofNat r.1

inductive ClockType where
  | ros
  | system
deriving DecidableEq

/-- `rclcpp::Time`. -/
structure Time where
  nanoseconds : Int
  clock : ClockType
deriving DecidableEq

/-- `operator<`; `none` when it throws. -/
def Time.less (a b : Time) : Option Bool :=
  if a.clock = b.clock then some (decide (a.nanoseconds < b.nanoseconds)) else none

section Code

variable {D : Type} (fl : Doubles D)

def seconds (t : Time) : D := fl.arith.lit (t.nanoseconds / 1000000000)

/-- `rclcpp::Time(seconds, nanoseconds)`, which refuses to go below zero. -/
def Time.of (seconds : Int) (nanoseconds : Nat) : Option Time :=
  if seconds < 0 then none else some ⟨seconds * 1000000000 + nanoseconds, .system⟩

/-! ## The data -/

structure TrackedObstacle (D : Type) where
  id : UInt32
  hull_points : List (D × D)
  cx : D
  cy : D
  radius : D
  first_seen : Time
  last_seen : Time
  observation_count : UInt32
  persistent : Bool
deriving DecidableEq

def TrackedObstacle.blank : TrackedObstacle D :=
  { id := 0, hull_points := [], cx := fl.arith.lit 0, cy := fl.arith.lit 0
    radius := fl.arith.lit 0, first_seen := ⟨0, .system⟩, last_seen := ⟨0, .system⟩
    observation_count := 0, persistent := false }

/-- `nav_msgs/OccupancyGrid`. -/
structure OccupancyGrid (D : Type) where
  width : Nat
  height : Nat
  resolution : D
  origin : D × D
  data : List Int

structure Cfg (D : Type) where
  persistence_threshold : D
  transient_timeout : D
  min_obstacle_radius : D
  max_obstacle_radius : D
  publish_rate : D
  boundary_margin : D
  keepout_lethal_threshold : Int
  persistence_file : Str

structure Node (D : Type) where
  tracked : List (TrackedObstacle D)
  next_id : UInt32
  boundary_loaded : Bool
  boundary_inset : List (D × D)
  keepout_mask : Option (OccupancyGrid D)
  /-- What the persistence file holds, if it can be opened. -/
  file : Option Str

/-! ## Shapes -/

def centroid (points : List (D × D)) : D × D :=
  let d := fl.arith
  let sum := points.foldl (fun s p => (d.add s.1 p.1, d.add s.2 p.2)) (d.lit 0, d.lit 0)
  (d.div sum.1 (d.lit points.length), d.div sum.2 (d.lit points.length))

def maxRadius (points : List (D × D)) (c : D × D) : D :=
  let d := fl.arith
  points.foldl (fun r p => d.max r (d.hypot (d.sub p.1 c.1) (d.sub p.2 c.2))) (d.lit 0)

def cross (o a b : D × D) : D :=
  let d := fl.arith
  d.sub (d.mul (d.sub a.1 o.1) (d.sub b.2 o.2)) (d.mul (d.sub a.2 o.2) (d.sub b.1 o.1))

/-- The hull so far, newest first, without what does not turn left towards `p`. -/
def popTurns (least : Nat) (p : D × D) : List (D × D) → List (D × D)
  | b :: a :: rest =>
    if least ≤ rest.length + 2 ∧ fl.arith.le (cross fl a b p) (fl.arith.lit 0) = true then
      popTurns least p (a :: rest)
    else b :: a :: rest
  | hull => hull

def notAfter (p q : D × D) : Bool :=
  let d := fl.arith
  !(d.lt q.1 p.1 || (!d.lt p.1 q.1 && d.lt q.2 p.2))

/-- `std::unique`. -/
def unique : List (D × D) → List (D × D)
  | p :: q :: rest =>
    if fl.arith.eq p.1 q.1 && fl.arith.eq p.2 q.2 then
      match unique (q :: rest) with
      | [] => [p]
      | _ :: kept => p :: kept
    else p :: unique (q :: rest)
  | points => points

def convex_hull (points : List (D × D)) : List (D × D) :=
  if points.length < 3 then points
  else
    let sorted := unique fl (points.insertionSort fun p q => notAfter fl p q = true)
    if sorted.length < 3 then sorted
    else
      let lower := sorted.foldl (fun hull p => p :: popTurns fl 2 p hull) []
      let upper := sorted.dropLast.reverse.foldl
        (fun hull p => p :: popTurns fl (lower.length + 1) p hull) lower
      upper.tail.reverse

/-- The farthest point of each angular bin so far, newest first, and the angle of the newest. -/
def sweep (c : D × D) (state : List (D × D) × D) (p : D × D) : List (D × D) × D :=
  let d := fl.arith
  let angle := fl.atan2 (d.sub p.2 c.2) (d.sub p.1 c.1)
  match state.1 with
  | prev :: rest =>
    if d.lt (d.sub angle state.2) (d.lit (1 / 10)) then
      let far (q : D × D) := d.hypot (d.sub q.1 c.1) (d.sub q.2 c.2)
      if d.lt (far prev) (far p) then (p :: rest, state.2) else state
    else (p :: state.1, angle)
  | [] => ([p], angle)

def boundary_hull (points : List (D × D)) : List (D × D) :=
  let d := fl.arith
  if points.length < 4 then convex_hull fl points
  else
    let c := centroid fl points
    let angle (p : D × D) := fl.atan2 (d.sub p.2 c.2) (d.sub p.1 c.1)
    let sorted := points.insertionSort fun p q => d.lt (angle q) (angle p) = false
    let boundary := (sorted.foldl (sweep fl c) ([], d.lit (-999))).1
    if boundary.length < 3 then convex_hull fl points else boundary.reverse

def point_in_polygon (p : D × D) (polygon : List (D × D)) : Bool :=
  let d := fl.arith
  if polygon.length < 3 then false
  else
    ((polygon.getLast?.toList ++ polygon).zip polygon).foldl (fun inside e =>
      let j := e.1
      let i := e.2
      let meets := d.lt p.1 (d.add (d.div (d.mul (d.sub j.1 i.1) (d.sub p.2 i.2))
        (d.sub j.2 i.2)) i.1)
      if (d.lt p.2 i.2 != d.lt p.2 j.2) && meets then !inside else inside) false

def inset (margin : D) (polygon : List (D × D)) : List (D × D) :=
  let d := fl.arith
  let c := centroid fl polygon
  polygon.map fun p =>
    let dx := d.sub p.1 c.1
    let dy := d.sub p.2 c.2
    let dist := d.hypot dx dy
    if d.lt (d.lit (1 / 1000000)) dist then
      let shrink := d.min (d.div margin dist) (d.lit (1 / 2))
      (d.sub p.1 (d.mul dx shrink), d.sub p.2 (d.mul dy shrink))
    else p

/-! ## The tracked list -/

def centroid_in_keepout_lethal (threshold : Int) (mask : Option (OccupancyGrid D)) (p : D × D) :
    Bool :=
  let d := fl.arith
  match mask with
  | none => false
  | some mask =>
    if mask.width = 0 ∨ mask.height = 0 ∨ d.le mask.resolution (d.lit 0) = true then false
    else
      let col := fl.toInt32 (fl.floor (d.div (d.sub p.1 mask.origin.1) mask.resolution))
      let row := fl.toInt32 (fl.floor (d.div (d.sub p.2 mask.origin.2) mask.resolution))
      if col < 0 ∨ row < 0 ∨ mask.width ≤ col ∨ mask.height ≤ row then false
      else decide (threshold ≤ mask.data.getD (row.toNat * mask.width + col.toNat) (-1))

/-- The distance to the nearest obstacle and where that one is in the list. -/
def nearest (tracked : List (TrackedObstacle D)) (c : D × D) : D × Option Nat :=
  let d := fl.arith
  tracked.zipIdx.foldl (fun best o =>
    let dist := d.hypot (d.sub o.1.cx c.1) (d.sub o.1.cy c.2)
    if d.lt dist best.1 then (dist, some o.2) else best) (fl.maximum, none)

/-- The obstacle that a cluster was associated with. -/
def TrackedObstacle.observed (o : TrackedObstacle D) (cluster : List (D × D)) (stamp : Time) :
    TrackedObstacle D :=
  let d := fl.arith
  let c := centroid fl cluster
  let alpha := d.div (d.lit 1) (d.add (d.lit o.observation_count.toNat) (d.lit 1))
  let kept := d.sub (d.lit 1) alpha
  { o with
    cx := d.add (d.mul o.cx kept) (d.mul c.1 alpha)
    cy := d.add (d.mul o.cy kept) (d.mul c.2 alpha)
    radius := d.max o.radius (maxRadius fl cluster c)
    hull_points := boundary_hull fl cluster
    last_seen := stamp
    observation_count := o.observation_count + 1 }

def Node.track (s : Node D) (cluster : List (D × D)) (stamp : Time) : Node D :=
  let c := centroid fl cluster
  let obs : TrackedObstacle D :=
    { id := s.next_id, cx := c.1, cy := c.2, radius := maxRadius fl cluster c
      hull_points := boundary_hull fl cluster, first_seen := stamp, last_seen := stamp
      observation_count := 1, persistent := false }
  { s with tracked := s.tracked ++ [obs], next_id := s.next_id + 1 }

def Node.associate (cfg : Cfg D) (stamp : Time) (s : Node D) (cluster : List (D × D)) : Node D :=
  let d := fl.arith
  let c := centroid fl cluster
  let max_r := maxRadius fl cluster c
  if cluster.isEmpty then s
  else if d.lt max_r cfg.min_obstacle_radius || d.lt cfg.max_obstacle_radius max_r then s
  else if s.boundary_loaded && !point_in_polygon fl c s.boundary_inset then s
  else if centroid_in_keepout_lethal fl cfg.keepout_lethal_threshold s.keepout_mask c then s
  else
    let close := nearest fl s.tracked c
    match close.2 with
    | none => s.track fl cluster stamp
    | some i =>
      if d.le close.1 (d.lit (1 / 2)) then
        { s with tracked := s.tracked.modify i fun o => o.observed fl cluster stamp }
      else s.track fl cluster stamp

def associate_clusters (cfg : Cfg D) (s : Node D) (clusters : List (List (D × D)))
    (stamp : Time) : Node D :=
  clusters.foldl (Node.associate fl cfg stamp) s

/-- What `promote_persistent` leaves of an obstacle. -/
def promote (cfg : Cfg D) (now : Time) (o : TrackedObstacle D) : Option (TrackedObstacle D) :=
  let d := fl.arith
  let age := d.sub (seconds fl now) (seconds fl o.first_seen)
  let since_seen := d.sub (seconds fl now) (seconds fl o.last_seen)
  if !o.persistent && d.lt cfg.transient_timeout since_seen then none
  else if !o.persistent && d.le cfg.persistence_threshold age then
    let expected := d.mul age cfg.publish_rate
    let coverage := d.div (d.lit o.observation_count.toNat) (d.max expected (d.lit 1))
    if d.le (d.lit (1 / 2)) coverage && decide (3 ≤ o.observation_count) then
      some { o with persistent := true }
    else some o
  else some o

def promote_persistent (cfg : Cfg D) (now : Time) (tracked : List (TrackedObstacle D)) :
    List (TrackedObstacle D) :=
  tracked.filterMap (promote fl cfg now)

def overlaps (a b : TrackedObstacle D) : Bool :=
  let d := fl.arith
  d.lt (d.hypot (d.sub a.cx b.cx) (d.sub a.cy b.cy))
    (d.add (d.add a.radius b.radius) (d.lit (1 / 10)))

/-- What `a` becomes when `b` is merged into it; `none` when the comparison of their times
throws. -/
def merged (a b : TrackedObstacle D) : Option (TrackedObstacle D) :=
  let hull := boundary_hull fl (a.hull_points ++ b.hull_points)
  let c := centroid fl hull
  (b.first_seen.less a.first_seen).bind fun earlier =>
    (a.last_seen.less b.last_seen).map fun later =>
      { a with
        hull_points := hull, cx := c.1, cy := c.2, radius := maxRadius fl hull c
        observation_count := a.observation_count + b.observation_count
        first_seen := if earlier then b.first_seen else a.first_seen
        last_seen := if later then b.last_seen else a.last_seen
        persistent := a.persistent || b.persistent }

/-- The first obstacle that `a` overlaps, and the others. -/
def absorb (a : TrackedObstacle D) :
    List (TrackedObstacle D) → Option (TrackedObstacle D × List (TrackedObstacle D))
  | [] => none
  | b :: rest =>
    if overlaps fl a b then some (b, rest)
    else (absorb a rest).map fun r => (r.1, b :: r.2)

/-- The list after the first merge, if there is one to make. -/
def merge_pair : List (TrackedObstacle D) → Option (Option (List (TrackedObstacle D)))
  | [] => none
  | a :: rest =>
    match absorb fl a rest with
    | some r => some ((merged fl a r.1).map (· :: r.2))
    | none => (merge_pair rest).map fun t => t.map (a :: ·)

/-- At most `n` merges. -/
def merges : Nat → List (TrackedObstacle D) → Option (List (TrackedObstacle D))
  | 0, tracked => some tracked
  | n + 1, tracked =>
    match merge_pair fl tracked with
    | none => some tracked
    | some t => t.bind (merges n)

/-- Each merge takes one obstacle away, so the loop is over after as many as there are. -/
def merge_overlapping (tracked : List (TrackedObstacle D)) : Option (List (TrackedObstacle D)) :=
  merges fl tracked.length tracked

/-! ## Persistence -/

/-- The lines of an obstacle. -/
def entry (fixed : Bool) (o : TrackedObstacle D) : List Str :=
  ["  - id: ".toList ++ Text.decimal o.id.toNat,
    "    cx: ".toList ++ shown fl fixed o.cx,
    "    cy: ".toList ++ shown fl fixed o.cy,
    "    radius: ".toList ++ shown fl fixed o.radius,
    "    first_seen_sec: ".toList ++ shown fl true (seconds fl o.first_seen),
    "    observation_count: ".toList ++ Text.decimal o.observation_count.toNat,
    "    hull_points:".toList] ++
  o.hull_points.map fun p =>
    "      - [".toList ++ shown fl true p.1 ++ ", ".toList ++ shown fl true p.2 ++ "]".toList

/-- `std::fixed` stays on once an obstacle was written. -/
def entries : Bool → List (TrackedObstacle D) → List Str
  | _, [] => []
  | fixed, o :: rest =>
    if o.persistent then entry fl fixed o ++ entries true rest else entries fixed rest

def saveText (tracked : List (TrackedObstacle D)) : Str :=
  (["# mowgli obstacle tracker — persistent obstacles".toList, "obstacles:".toList] ++
    entries fl false tracked).flatMap (· ++ ['\n'])

structure Loading (D : Type) where
  tracked : List (TrackedObstacle D)
  current : TrackedObstacle D
  in_obstacle : Bool
  in_hull : Bool
  max_id : UInt32

/-- The obstacle read so far goes onto the list. -/
def Loading.push (l : Loading D) : Loading D :=
  if l.in_obstacle then
    { l with
      tracked := l.tracked ++ [{ l.current with persistent := true }]
      max_id := if l.max_id < l.current.id then l.current.id else l.max_id }
  else l

/-- The two texts of a hull point. -/
def hullTexts (trimmed : Str) : Option (Str × Str) :=
  let tail := (trimmed.drop 3).dropWhile (· != ',')
  if tail.isEmpty || !tail.contains ']' then none
  else some ((trimmed.drop 3).takeWhile (· != ','), (tail.drop 1).takeWhile (· != ']'))

/-- What follows a key on its line. -/
def valueOf (key : String) (trimmed : Str) : Option Str :=
  if (key.toList ++ ": ".toList).isPrefixOf trimmed then some (trimmed.drop (key.length + 2))
  else none

/-- A field of doubles: what the line sets, if its key is this one and its number is finite. -/
def parse_double (key : String) (trimmed : Str) : Except Str (Option D) :=
  match valueOf key trimmed with
  | none => .ok none
  | some text =>
    match stod fl text with
    | none => .error "stod".toList
    | some x => .ok (if isfinite fl x then some x else none)

def parse_uint (key : String) (trimmed : Str) : Except Str (Option UInt32) :=
  match valueOf key trimmed with
  | none => .ok none
  | some text =>
    match stoul text with
    | none => .error "stoul".toList
    | some n => .ok (if 0 < n then some n else none)

/-- The time that a number of seconds is loaded as. -/
def loadedTime (fss : D) : Option Time :=
  let d := fl.arith
  Time.of (fl.toInt32 fss)
    (fl.toUInt32 (d.mul (d.sub fss (fl.floor fss)) (d.lit 1000000000)))

/-- The scalar fields, one after another. -/
def readField (now : Time) (o : TrackedObstacle D) (trimmed : Str) :
    Except Str (TrackedObstacle D) := do
  if let some cx ← parse_double fl "cx" trimmed then return { o with cx := cx }
  if let some cy ← parse_double fl "cy" trimmed then return { o with cy := cy }
  if let some rad ← parse_double fl "radius" trimmed then return { o with radius := rad }
  if let some fss ← parse_double fl "first_seen_sec" trimmed then
    match loadedTime fl fss with
    | none => throw "cannot store a negative time point in rclcpp::Time".toList
    | some t => return { o with first_seen := t, last_seen := now }
  if let some count ← parse_uint "observation_count" trimmed then
    return { o with observation_count := count }
  return o

/-- From `find_first_not_of(' ')` on. -/
def trim (line : Str) : Str := line.dropWhile (· == ' ')

/-- One line of the file. What a failure leaves behind comes with it. -/
def readLine (now : Time) (l : Loading D) (line : Str) : Except (Loading D × Str) (Loading D) :=
  let trimmed := trim line
  if trimmed.isEmpty || trimmed.head? == some '#' then .ok l
  else if "- id:".toList.isPrefixOf trimmed then
    let l := { l.push with
      current := TrackedObstacle.blank fl, in_obstacle := true, in_hull := false }
    match stoul (trimmed.drop 5) with
    | none => .error (l, "stoul".toList)
    | some id => .ok { l with current := { l.current with id := id } }
  else if !l.in_obstacle then .ok l
  else if "hull_points:".toList.isPrefixOf trimmed then .ok { l with in_hull := true }
  else if l.in_hull && "- [".toList.isPrefixOf trimmed then
    match hullTexts trimmed with
    | none => .ok l
    | some texts =>
      match stod fl texts.1, stod fl texts.2 with
      | some hx, some hy =>
        .ok { l with
          current := { l.current with hull_points := l.current.hull_points ++ [(hx, hy)] } }
      | _, _ => .error (l, "stod".toList)
  else
    let l :=
      if trimmed.contains ':' && !"- [".toList.isPrefixOf trimmed then { l with in_hull := false }
      else l
    match readField fl now l.current trimmed with
    | .error what => .error (l, what)
    | .ok current => .ok { l with current := current }

def readLines (now : Time) (l : Loading D) (lines : List Str) :
    Except (Loading D × Str) (Loading D) :=
  lines.foldlM (readLine fl now) l

/-- `load_from_file`, and what it throws. A file that is not there is no error. -/
def load_from_file (now : Time) (s : Node D) : Node D × Option Str :=
  match s.file with
  | none => (s, none)
  | some text =>
    let start : Loading D :=
      { tracked := [], current := TrackedObstacle.blank fl, in_obstacle := false, in_hull := false
        max_id := 0 }
    match readLines fl now start (Text.lines text) with
    | .error failed => ({ s with tracked := failed.1.tracked }, some failed.2)
    | .ok l => ({ s with tracked := l.push.tracked, next_id := l.push.max_id + 1 }, none)

/-! ## The node -/

inductive Event (D : Type) where
  | clusters (clusters : List (List (D × D))) (stamp : Nat)
  | on_keepout_mask (mask : OccupancyGrid D)
  /-- A response of `GetMowingArea`. -/
  | boundary (success : Bool) (points : List (D × D))
  | on_publish_timer (now : Nat)
  | on_clear_obstacle (id : UInt32)
  | on_clear_all
  /-- Whether the file can be opened for writing, and how much of the text the disk takes. -/
  | on_save (opened : Bool) (taken : Nat)
  | on_load (now : Nat)
  /-- The file changes under the node. -/
  | edited (file : Option Str)

structure Response where
  success : Bool
  message : Str
deriving DecidableEq

def Node.on_boundary (cfg : Cfg D) (s : Node D) (success : Bool) (points : List (D × D)) :
    Node D :=
  if !success || points.isEmpty then s
  else
    let boundary_inset := inset fl cfg.boundary_margin points
    { s with
      boundary_loaded := true
      boundary_inset := boundary_inset
      tracked := s.tracked.filter fun o => point_in_polygon fl (o.cx, o.cy) boundary_inset }

def Node.on_clear_obstacle (s : Node D) (id : UInt32) : Node D × Response :=
  let kept := s.tracked.filter fun o => o.id != id
  let text := Text.decimal id.toNat
  if kept.length < s.tracked.length then
    ({ s with tracked := kept },
      { success := true, message := "Obstacle ".toList ++ text ++ " removed.".toList })
  else
    ({ s with tracked := kept },
      { success := false, message := "Obstacle ".toList ++ text ++ " not found.".toList })

def Node.on_clear_all (s : Node D) : Node D × Response :=
  ({ s with tracked := [], next_id := 1 },
    { success := true
      message := "Cleared ".toList ++ Text.decimal s.tracked.length ++ " obstacles.".toList })

def unset : Response :=
  { success := false, message := "persistence_file parameter is not set.".toList }

/-- Nobody asks the stream whether the text was written. -/
def Node.on_save (cfg : Cfg D) (s : Node D) (opened : Bool) (taken : Nat) : Node D × Response :=
  if cfg.persistence_file.isEmpty then (s, unset)
  else if !opened then
    (s,
      { success := false
        message :=
          "Save failed: Cannot open file for writing: ".toList ++ cfg.persistence_file })
  else
    ({ s with file := some ((saveText fl s.tracked).take taken) },
      { success := true, message := "Saved obstacles to ".toList ++ cfg.persistence_file })

def Node.on_load (cfg : Cfg D) (s : Node D) (now : Nat) : Node D × Response :=
  if cfg.persistence_file.isEmpty then (s, unset)
  else
    let loaded := load_from_file fl ⟨now, .ros⟩ s
    match loaded.2 with
    | none =>
      (loaded.1,
        { success := true, message := "Loaded obstacles from ".toList ++ cfg.persistence_file })
    | some what => (loaded.1, { success := false, message := "Load failed: ".toList ++ what })

/-- `none` when the node goes down. -/
def step (cfg : Cfg D) (s : Node D) : Event D → Option (Node D × Option Response)
  | .clusters clusters stamp =>
    some (associate_clusters fl cfg s clusters ⟨stamp, .ros⟩, none)
  | .on_keepout_mask mask => some ({ s with keepout_mask := some mask }, none)
  | .boundary success points => some (s.on_boundary fl cfg success points, none)
  | .on_publish_timer now =>
    (merge_overlapping fl (promote_persistent fl cfg ⟨now, .ros⟩ s.tracked)).map fun tracked =>
      ({ s with tracked := tracked }, none)
  | .on_clear_obstacle id => some ((s.on_clear_obstacle id).1, some (s.on_clear_obstacle id).2)
  | .on_clear_all => some (s.on_clear_all.1, some s.on_clear_all.2)
  | .on_save opened taken =>
    some ((s.on_save fl cfg opened taken).1, some (s.on_save fl cfg opened taken).2)
  | .on_load now => some ((s.on_load fl cfg now).1, some (s.on_load fl cfg now).2)
  | .edited file => some ({ s with file := file }, none)

/-- The constructor, which loads what it finds; nobody catches what it throws. -/
def boot (cfg : Cfg D) (file : Option Str) (now : Nat) : Option (Node D) :=
  let s : Node D :=
    { tracked := [], next_id := 1, boundary_loaded := false, boundary_inset := []
      keepout_mask := none, file := file }
  if cfg.persistence_file.isEmpty then some s
  else
    let loaded := load_from_file fl ⟨now, .ros⟩ s
    if loaded.2.isSome then none else some loaded.1

/-- The node after some events, if it is still up. -/
def run (cfg : Cfg D) (s : Node D) : List (Event D) → Option (Node D)
  | [] => some s
  | e :: events => (step fl cfg s e).bind fun r => run cfg r.1 events

end Code

end Obstacles
end Mowgli
