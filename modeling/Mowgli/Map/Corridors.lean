import Mowgli.Lib.Fresh
import Mowgli.Map.File

/-!
# Corridors — edits of the LiDAR-ignore list

`lidar_corridor_manager.cpp`. The three edits of the list stage a candidate and give it to one
commit: the file first, then the live list, then the topic. A list that only takes suppression
away goes on without the file when that cannot be written.
-/

namespace Mowgli
namespace Map

/-- `mowgli_interfaces/LidarIgnoreCorridor` has the fields of an entry. -/
abbrev LidarIgnoreCorridor (F D : Type) := LidarIgnoreCorridorEntry F D

/-- `std::string::size`. -/
def size : Str → Nat
  | [] => 0
  | c :: s => c.utf8Size + size s

def isAsciiWhitespace (c : Char) : Bool := Text.isSpace c

def trimAsciiWhitespace (s : Str) : Str :=
  ((s.dropWhile isAsciiWhitespace).reverse.dropWhile isAsciiWhitespace).reverse

section Corridors

variable {F D : Type} (fl : Floats F D)

def kMinLidarIgnoreCorridorWidthM : D := fl.double.lit (1 / 20)
def kMaxLidarIgnoreCorridorWidthM : D := fl.double.lit (6 / 5)

def normalised (c : LidarIgnoreCorridor F D) : LidarIgnoreCorridor F D :=
  { c with name := trimAsciiWhitespace c.name }

/-- The two points are further apart than the consumer's degeneracy scale. -/
def nonDegenerate (prev p : Point32 F) : Bool :=
  let d := fl.double
  let dx := d.sub (fl.widen p.x) (fl.widen prev.x)
  let dy := d.sub (fl.widen p.y) (fl.widen prev.y)
  d.lt (d.lit (1 / 1000000000000)) (d.add (d.mul dx dx) (d.mul dy dy))

def isPlanar (p : Point32 F) : Bool :=
  let s := fl.single
  s.isFinite p.x && s.isFinite p.y && s.isFinite p.z && s.eq p.z (s.lit 0)

/-- Some two neighbours of a line are apart. -/
def hasSegment (points : Polygon F) : Bool :=
  (points.zip points.tail).any fun s => nonDegenerate fl s.1 s.2

/-- `corridor_rejection`; `none` is a valid corridor. -/
def corridorRejection (c : LidarIgnoreCorridor F D) : Option String :=
  if c.polyline.length < 2 then some "polyline has fewer than 2 points"
  else if !fl.double.isFinite c.widthM then some "width_m is not finite"
  else if c.name.any fun ch => ch == '\r' || ch == '\n' || ch == '\x00' then
    some "name contains a line break or NUL"
  else if !c.polyline.all (isPlanar fl) then some "point is not finite or has a non-zero z"
  else if hasSegment fl c.polyline then none
  else some "polyline has no non-degenerate segment"

/-- `operator==` of two polylines. -/
def samePolyline : Polygon F → Polygon F → Bool
  | [], [] => true
  | p :: ps, q :: qs =>
    fl.single.eq p.x q.x && fl.single.eq p.y q.y && fl.single.eq p.z q.z && samePolyline ps qs
  | _, _ => false

/-- The line of `now`, no wider. -/
def suppressesNoMore (next now : LidarIgnoreCorridorEntry F D) : Bool :=
  now.id == next.id && samePolyline fl now.polyline next.polyline &&
    fl.double.le next.widthM now.widthM

def onlyRemovesSuppression (candidate current : List (LidarIgnoreCorridorEntry F D)) : Bool :=
  candidate.all fun next => current.any fun now => suppressesNoMore fl next now

/-- `ReplaceLidarIgnoreCorridors::Response`. -/
structure ReplaceResponse (F D : Type) where
  success : Bool
  outcome : String
  message : Str
  committed : Bool
  persisted : Bool
  published : Bool
  clientOperationId : Str
  serverInstanceId : Str
  revision : UInt64
  corridors : List (LidarIgnoreCorridor F D)

/-- `Replace::Response{}`. -/
def ReplaceResponse.zero : ReplaceResponse F D :=
  { success := false, outcome := "", message := [], committed := false, persisted := false,
    published := false, clientOperationId := [], serverInstanceId := [], revision := 0,
    corridors := [] }

/-- How `commit_corridors` ends in its response, once the list is live. -/
def committedOutcome (configured durable published : Bool) (writeError : Str) :
    Bool × String × Str :=
  if !writeError.isEmpty then
    (false, "COMMITTED_DURABILITY_UNCONFIRMED",
      "removal committed in memory".toList ++
        (if published then " and published" else ", publication pending").toList ++
        "; areas.dat write failed (".toList ++ writeError ++
        "), durability unconfirmed — a restart before the next successful save restores it".toList)
  else if !durable && configured then
    (false, "COMMITTED_DURABILITY_UNCONFIRMED",
      "replacement committed; directory sync failed, durability unconfirmed".toList)
  else if !published then
    (false, "COMMITTED_PUBLICATION_PENDING",
      "replacement committed; publication will be retried without replaying the write".toList)
  else
    (true, "COMMITTED",
      (if configured then "replacement persisted" else "legacy memory-only operation").toList)

/-- The list, the counter and the revision of a commit; then the topic, when it takes it. -/
def install (σ : MapServer F D) (candidate : List (LidarIgnoreCorridorEntry F D)) (nextId : Nat)
    (publishes : Bool) : MapServer F D :=
  { σ with
    lidarIgnoreCorridors := candidate
    nextLidarCorridorId := nextId
    corridorRevision := σ.corridorRevision + 1
    corridorPublicationPending := !publishes
    lidarIgnoreCorridorsPub :=
      if publishes then some candidate else σ.lidarIgnoreCorridorsPub }

/-- `commit_corridors`. `publishes` says that the publisher does not throw. -/
def commitCorridors (σ : MapServer F D) (candidate : List (LidarIgnoreCorridorEntry F D))
    (nextId : Nat) (result : ReplaceResponse F D) (requirePersistence : Bool) (disk : Disk)
    (publishes : Bool) : MapServer F D × ReplaceResponse F D :=
  let configured := !σ.settings.areasFilePath.isEmpty
  let result :=
    { result with
      serverInstanceId := σ.corridorServerInstanceId
      revision := σ.corridorRevision
      corridors := σ.lidarIgnoreCorridors }
  if requirePersistence && !configured then
    (σ,
      { result with
        outcome := "PERSISTENCE_NOT_CONFIGURED"
        message := "areas_file_path is empty; no persistent replacement was applied".toList })
  else
    let written :=
      if configured then
        match writeAreasCandidate fl σ false candidate nextId disk with
        | .ok (text, durable) => ({ σ with file := some text }, durable, [])
        | .error what => (σ, false, what)
      else (σ, false, [])
    let writeError := written.2.2
    if !writeError.isEmpty && !onlyRemovesSuppression fl candidate σ.lidarIgnoreCorridors then
      (σ,
        { result with
          outcome := "PERSISTENCE_FAILED_BEFORE_COMMIT"
          message := writeError })
    else
      let after := install written.1 candidate nextId publishes
      let ending := committedOutcome configured written.2.1 publishes writeError
      (after,
        { result with
          success := ending.1
          outcome := ending.2.1
          message := ending.2.2
          committed := true
          persisted := written.2.1
          published := publishes
          revision := after.corridorRevision
          corridors := candidate })

/-! ## Staging -/

def MAX_PAYLOAD_BYTES : Nat := 65536
/-- `sizeof(LidarIgnoreCorridorEntry)` and `sizeof(geometry_msgs::msg::Point32)` of a 64-bit
build. -/
def sizeofEntry : Nat := 72
def sizeofPoint32 : Nat := 12
def UINT32_MAX : Nat := 4294967295

def stagingMessage : Str :=
  "invalid 2D corridor, duplicate/exhausted ID, or staging payload exceeds 64 KiB".toList

/-- The first pass of a replacement: the explicit ids, or why the list is refused. -/
def reserveIds (remaining : Nat) (ids : List UInt32) :
    List (LidarIgnoreCorridor F D) → Except Str (List UInt32)
  | [] => .ok ids
  | c :: cs =>
    if remaining < sizeofEntry then .error stagingMessage
    else
      let remaining := remaining - sizeofEntry
      if remaining < size c.name then .error stagingMessage
      else
        let remaining := remaining - size c.name
        if remaining / sizeofPoint32 < c.polyline.length then .error stagingMessage
        else
          let remaining := remaining - c.polyline.length * sizeofPoint32
          match corridorRejection fl (normalised c) with
          | some reason =>
            .error ("invalid corridor '".toList ++ (normalised c).name ++ "': ".toList ++
              reason.toList)
          | none =>
            if c.id == 0 then reserveIds remaining ids cs
            else if c.id ∈ ids then
              .error ("duplicate corridor id ".toList ++ Text.decimal c.id.toNat)
            else reserveIds remaining (c.id :: ids) cs

/-- What is stored of a corridor. -/
def storedCorridor (c : LidarIgnoreCorridor F D) (id : Nat) : LidarIgnoreCorridorEntry F D :=
  { name := trimAsciiWhitespace c.name
    polyline := c.polyline
    widthM :=
      fl.double.clamp c.widthM (kMinLidarIgnoreCorridorWidthM fl)
        (kMaxLidarIgnoreCorridorWidthM fl)
    id := UInt32.ofNat id }

/-- The second pass: the entries, each with an id; `none` when the ids are used up. -/
def mintIds (next : Nat) :
    List (LidarIgnoreCorridor F D) → Option (List (LidarIgnoreCorridorEntry F D) × Nat)
  | [] => some ([], next)
  | c :: cs =>
    if c.id == 0 then
      if UINT32_MAX < next then none
      else (mintIds (next + 1) cs).map fun r => (storedCorridor fl c next :: r.1, r.2)
    else (mintIds next cs).map fun r => (storedCorridor fl c c.id.toNat :: r.1, r.2)

/-- The candidate of a replacement and the counter behind it, or why there is none. -/
def stageReplace (σ : MapServer F D) (clientOperationId : Str)
    (corridors : List (LidarIgnoreCorridor F D)) :
    Except Str (List (LidarIgnoreCorridorEntry F D) × Nat) :=
  if MAX_PAYLOAD_BYTES < size clientOperationId ∨
      MAX_PAYLOAD_BYTES / sizeofEntry < corridors.length then .error stagingMessage
  else
    match reserveIds fl (MAX_PAYLOAD_BYTES - size clientOperationId) [] corridors with
    | .error message => .error message
    | .ok ids =>
      match mintIds fl (Fresh.past σ.nextLidarCorridorId (ids.map UInt32.toNat)) corridors with
      | none => .error stagingMessage
      | some staged => .ok staged

/-- The id of an added corridor and the counter behind it; `none` when the ids are used up. -/
def assignCorridorId (σ : MapServer F D) (id : UInt32) : Option (Nat × Nat) :=
  let next := σ.nextLidarCorridorId
  let assigned :=
    if id == 0 || σ.lidarIgnoreCorridors.any fun e => e.id == id then
      if UINT32_MAX < next then none else some (next, next + 1)
    else some (id.toNat, next)
  assigned.map fun r => (r.1, max r.2 (r.1 + 1))

/-- The candidate of an addition, the counter behind it and the id of the new entry. -/
def stageAdd (σ : MapServer F D) (corridor : LidarIgnoreCorridor F D) :
    Option (List (LidarIgnoreCorridorEntry F D) × Nat × Nat) :=
  match corridorRejection fl (normalised corridor) with
  | some _ => none
  | none =>
    (assignCorridorId σ corridor.id).map fun r =>
      (σ.lidarIgnoreCorridors ++ [storedCorridor fl corridor r.1], r.2, r.1)

/-! ## The three services -/

/-- What a handler leaves: the state, the result of its commit and what the caller gets. -/
structure Handled (F D R : Type) where
  state : MapServer F D
  result : ReplaceResponse F D
  response : R

/-- The response of a replacement that is not committed yet. -/
def validationRejected (σ : MapServer F D) (clientOperationId message : Str) :
    ReplaceResponse F D :=
  { (ReplaceResponse.zero : ReplaceResponse F D) with
    clientOperationId := clientOperationId
    serverInstanceId := σ.corridorServerInstanceId
    revision := σ.corridorRevision
    corridors := σ.lidarIgnoreCorridors
    outcome := "VALIDATION_REJECTED"
    message := message }

def onReplaceLidarIgnoreCorridors (σ : MapServer F D) (clientOperationId : Str)
    (corridors : List (LidarIgnoreCorridor F D)) (disk : Disk) (publishes : Bool) :
    Handled F D (ReplaceResponse F D) :=
  match stageReplace fl σ clientOperationId corridors with
  | .error message =>
    let res := validationRejected σ clientOperationId message
    { state := σ, result := res, response := res }
  | .ok staged =>
    let r := commitCorridors fl σ staged.1 staged.2
      (validationRejected σ clientOperationId stagingMessage) true disk publishes
    { state := r.1, result := r.2, response := r.2 }

structure AddResponse where
  success : Bool
  id : UInt32

def onAddLidarIgnoreCorridor (σ : MapServer F D) (corridor : LidarIgnoreCorridor F D)
    (disk : Disk) (publishes : Bool) : Handled F D AddResponse :=
  match stageAdd fl σ corridor with
  | none => { state := σ, result := .zero, response := { success := false, id := 0 } }
  | some staged =>
    let r := commitCorridors fl σ staged.1 staged.2.1 .zero false disk publishes
    { state := r.1
      result := r.2
      response :=
        { success := r.2.success
          id := if r.2.committed then UInt32.ofNat staged.2.2 else 0 } }

/-- The response is `success`. -/
def onClearLidarIgnoreCorridors (σ : MapServer F D) (disk : Disk) (publishes : Bool) :
    Handled F D Bool :=
  let r := commitCorridors fl σ [] σ.nextLidarCorridorId .zero false disk publishes
  { state := r.1, result := r.2, response := r.2.committed && r.2.published }

end Corridors

end Map
end Mowgli
