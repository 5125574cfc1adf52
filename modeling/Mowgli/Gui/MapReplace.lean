import Mowgli.Lib.Errand
import Mowgli.Map.Runs

/-!
# MapReplace — one button over five services

`map_replace.go`: the map server has no service that replaces its map. A replacement reads the map
back, clears it, adds the areas one by one and saves; when it fails on the way, what was read is
added and saved the same way. Any call may stay without an answer, and is served later then.
-/

namespace Mowgli
namespace Gui
namespace MapReplace

open Map

/-- A request to `map_server_node`. -/
inductive MapRequest (F D : Type)
  | getMowingArea (index : UInt32)
  | clearMap
  | addArea (area : MapArea F D) (isNavigationArea : Bool)
  | saveAreas

structure MapResponse (F D : Type) where
  success : Bool
  message : Str
  /-- The area of `get_mowing_area`, with success. -/
  area : Option (MapArea F D)

/-- What the map server hears of in between. -/
inductive Report (F D : Type)
  | digEvent (msg : DigEvent D)
  | trackerSnapshot (obstacles : List (UInt32 × Polygon F))
  | robotPose (pose : Option (D × D))
  | publishTimer (publishes : Bool)

structure ReplaceMapArea (F D : Type) where
  area : MapArea F D
  isNavigationArea : Bool

inductive MapWriteStatus
  | unchanged
  | restored
  | unconfirmed
  | activePersistenceUnconfirmed
  | persisted
  deriving DecidableEq

/-- Why a call did not do what it was for: there was no answer, or a refusal with this text. -/
inductive CallFailure
  | noAnswer
  | refused (message : Str)

/-- The step of `writeAreas` that failed. -/
inductive WriteFailure
  | clearing (err : CallFailure)
  | adding (i total : Nat) (name : Str) (err : CallFailure)

inductive ReplaceFailure
  | unread
  | tooManyAreas
  | canceled
  | writing (err : WriteFailure)
  | persisting (err : CallFailure)

structure MapReplacementError where
  status : MapWriteStatus
  err : ReplaceFailure

/-- What the operator is told. -/
def statusOf (err : Option MapReplacementError) : MapWriteStatus :=
  (err.map (·.status)).getD .persisted

def maxSnapshotAreas : Nat := 512

section Calls

variable {F D : Type} (fl : Floats F D)

def Report.op : Report F D → Op F D
  | .digEvent msg => .digEvent msg
  | .trackerSnapshot obstacles => .trackerSnapshot obstacles
  | .robotPose pose => .robotPose pose
  | .publishTimer publishes => .publishTimer publishes

def hear (σ : MapServer F D) (report : Report F D) : MapServer F D := (perform fl σ report.op).1

/-- One request, as the map server serves it. -/
def serve (σ : MapServer F D) (disk : Map.Disk) : MapRequest F D → MapServer F D × MapResponse F D
  | .getMowingArea index =>
    let area := onGetMowingArea σ index.toNat
    (σ, { success := area.isSome, message := [], area := area })
  | .clearMap =>
    (onClearMap σ,
      { success := true, message := "All map layers and areas cleared.".toList, area := none })
  | .addArea area isNavigationArea =>
    let r := onAddArea fl σ area isNavigationArea disk
    (r.1, { success := r.2, message := [], area := none })
  | .saveAreas =>
    let r := onSaveAreas fl σ disk
    (r.1, { success := r.2.success, message := r.2.message, area := none })

abbrev Link (F D : Type) := Errand.Link (MapServer F D) (MapRequest F D) Map.Disk (Report F D)

/-- `callMapService`. -/
def callMapService (l : Link F D) (r : MapRequest F D) : Link F D × Option (MapResponse F D) :=
  Errand.call (serve fl) (hear fl) l r

/-- `normalizedArea`: no proposals. -/
def normalizedArea (area : MapArea F D) : MapArea F D :=
  { area with proposedObstacles := [], proposedObstacleInfo := [] }

/-- `snapshotMap` from an index on, with so many reads left. -/
def snapshotFrom (l : Link F D) (i : Nat) (snapshot : List (ReplaceMapArea F D)) :
    Nat → Link F D × Except ReplaceFailure (List (ReplaceMapArea F D))
  | 0 => (l, .error .tooManyAreas)
  | reads + 1 =>
    match callMapService fl l (.getMowingArea (UInt32.ofNat i)) with
    | (l, none) => (l, .error .unread)
    | (l, some res) =>
      match res.area with
      | none => (l, .ok snapshot)
      | some area =>
        snapshotFrom l (i + 1)
          (snapshot ++
            [{ area := normalizedArea area, isNavigationArea := area.isNavigationArea }]) reads

def snapshotMap (l : Link F D) : Link F D × Except ReplaceFailure (List (ReplaceMapArea F D)) :=
  snapshotFrom fl l 0 [] maxSnapshotAreas

/-- The loop of `writeAreas`. -/
def addAreas (total : Nat) (l : Link F D) (i : Nat) :
    List (ReplaceMapArea F D) → Link F D × Option WriteFailure
  | [] => (l, none)
  | element :: areas =>
    match callMapService fl l (.addArea (normalizedArea element.area) element.isNavigationArea) with
    | (l, none) => (l, some (.adding (i + 1) total element.area.name .noAnswer))
    | (l, some res) =>
      if res.success then addAreas total l (i + 1) areas
      else
        (l,
          some (.adding (i + 1) total element.area.name
            (.refused "map_server rejected it (a polygon needs at least 3 points)".toList)))

def writeAreas (l : Link F D) (areas : List (ReplaceMapArea F D)) :
    Link F D × Option WriteFailure :=
  match callMapService fl l .clearMap with
  | (l, none) => (l, some (.clearing .noAnswer))
  | (l, some cleared) =>
    if cleared.success then addAreas fl areas.length l 0 areas
    else (l, some (.clearing (.refused cleared.message)))

def persistAreas (l : Link F D) : Link F D × Option CallFailure :=
  match callMapService fl l .saveAreas with
  | (l, none) => (l, some .noAnswer)
  | (l, some saved) =>
    if saved.success then (l, none) else (l, some (.refused saved.message))

/-- `restorePreviousMap`. -/
def restorePreviousMap (l : Link F D) (previous : List (ReplaceMapArea F D)) :
    Link F D × MapWriteStatus :=
  match writeAreas fl l previous with
  | (l, some _) => (l, .unconfirmed)
  | (l, none) =>
    match persistAreas fl l with
    | (l, some _) => (l, .unconfirmed)
    | (l, none) => (l, .restored)

/-- `replaceMapLocked`; `canceled` is the context after the read. -/
def replaceMapLocked (l : Link F D) (areas : List (ReplaceMapArea F D)) (canceled : Bool) :
    Link F D × Option MapReplacementError :=
  match snapshotMap fl l with
  | (l, .error err) => (l, some { status := .unchanged, err := err })
  | (l, .ok previous) =>
    if canceled then (l, some { status := .unchanged, err := .canceled })
    else
      match writeAreas fl l areas with
      | (l, some err) =>
        let r := restorePreviousMap fl l previous
        (r.1, some { status := r.2, err := .writing err })
      | (l, none) =>
        match persistAreas fl l with
        | (l, some err) =>
          (l, some { status := .activePersistenceUnconfirmed, err := .persisting err })
        | (l, none) => (l, none)

end Calls

end MapReplace
end Gui
end Mowgli
