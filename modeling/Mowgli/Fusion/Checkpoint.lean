import Mathlib.Algebra.Group.Nat.Defs
import Mowgli.Lib.Disk
import Mowgli.Lib.Routine
import Mowgli.Lib.Text
import Mowgli.Fusion.Graph

/-!
# Checkpoint — the files a graph is saved to

`checkpoint_file.cpp`, and `Save`, `Load` and `DecodeSnapshot` of the manager. A generation is
one file, its metadata and its graph behind a header with their sizes and a checksum; it is
written under a temporary name and takes its place by **one rename**. The generation before
it is kept under a second name.

`Save` and `Clear` are routines of system calls, each of which may fail. What the solver's
archive reader and the checksum make of bytes is told from outside.
-/

namespace Mowgli
namespace Fusion

/-- Both parts are shorter than `size_t` counts. -/
structure Payload where
  graph : List Char
  metadata : List Char
  sized : graph.length < 2 ^ 64 ∧ metadata.length < 2 ^ 64
deriving DecidableEq

/-- The readers that are not part of the repository. -/
structure Archive (Pose : Type) where
  /-- `gtsam::deserializeXML`; `none` is an exception. -/
  deserializeXML : List Char → Option (List (Key × Pose))
  isfinite : Pose → Bool
  /-- `std::stod` takes the whole text, and the number is finite. -/
  number : List Char → Bool
  /-- `boost::crc_32_type`. -/
  crc : List Char → UInt32

namespace Checkpoint

variable {Pose : Type} (A : Archive Pose)

def kMagic : List Char := "MOWGLI_CHECKPOINT_V1".toList

def checksum (metadata graph : List Char) : UInt32 := A.crc (metadata ++ graph)

/-- The header of a generation. -/
def framing (p : Payload) : List Char :=
  kMagic ++ '\n' :: (Text.decimal p.metadata.length ++ ' ' :: (Text.decimal p.graph.length ++ ' ' ::
    (Text.decimal (checksum A p.metadata p.graph).toNat ++ ['\n'])))

def frame (p : Payload) : List Char := framing A p ++ (p.metadata ++ p.graph)

/-- The sizes and the checksum, with nothing behind them. -/
def readSizes (sizes : List Char) : Option (Nat × Nat × Nat) :=
  match Text.unsigned (2 ^ 64) sizes with
  | none => none
  | some (metadataSize, rest) =>
    match Text.unsigned (2 ^ 64) rest with
    | none => none
    | some (graphSize, rest) =>
      match Text.unsigned (2 ^ 32) rest with
      | none => none
      | some (checksum, rest) =>
        if (Text.skipSpace rest).isEmpty then some (metadataSize, graphSize, checksum) else none

/-- `Read` of the bytes of a file. -/
def read (bytes : List Char) : Option Payload :=
  match Text.getline bytes with
  | none => none
  | some (magic, rest) =>
    if magic ≠ kMagic then none
    else
      match Text.getline rest with
      | none => none
      | some (sizes, bytes) =>
        match readSizes sizes with
        | none => none
        | some (metadataSize, graphSize, sum) =>
          if bytes.length < metadataSize then none
          else if graphSize ≠ bytes.length - metadataSize then none
          else if hsized : (bytes.drop metadataSize).length < 2 ^ 64 ∧
              (bytes.take metadataSize).length < 2 ^ 64 then
            if (checksum A (bytes.take metadataSize) (bytes.drop metadataSize)).toNat ≠ sum then none
            else some { graph := bytes.drop metadataSize, metadata := bytes.take metadataSize,
                        sized := hsized }
          else none

/-- The lines of the metadata, with the last `next_index` so far. -/
def scanMetadata : List (List Char) → Nat → Option Nat
  | [], nextIndex => some nextIndex
  | line :: rest, nextIndex =>
    if '=' ∉ line then scanMetadata rest nextIndex
    else
      let key := line.takeWhile (· != '=')
      let val := (line.dropWhile (· != '=')).drop 1
      if key = "next_index".toList then
        match Text.unsigned (2 ^ 64) val with
        | none => none
        | some (n, tail) =>
          if val.head? = some '-' ∨ tail ≠ [] then none else scanMetadata rest n
      else if key = "last_node_time_s".toList ∨ key = "datum_lat".toList ∨
          key = "datum_lon".toList then
        if A.number val then scanMetadata rest nextIndex else none
      else scanMetadata rest nextIndex

def decodeSnapshot (p : Payload) : Option (List (Key × Pose) × Nat) :=
  match A.deserializeXML p.graph, scanMetadata A (Text.lines p.metadata) 0 with
  | some values, some nextIndex =>
    if nextIndex = 0 ∨ values.all fun kv => kv.1 != poseKey (nextIndex - 1) then none
    else if values.any fun kv =>
        kv.1.chr == 'x' && (decide (nextIndex ≤ kv.1.index) || !A.isfinite kv.2) then none
    else some (values, nextIndex)
  | _, _ => none

/-- `DecodeSnapshot` accepts it. -/
def decodes (p : Payload) : Bool := (decodeSnapshot A p).isSome

/-! ## The directory -/

/-- The names beside the prefix. -/
inductive Name
  | graph
  | metadata
  | scans
  | previous
  | current
  | tmp (n : Nat)
deriving DecidableEq

/-- What has been asked, and what was answered with success. -/
inductive Mark
  | saving (p : Payload)
  /-- The current file could not be read. -/
  | unread
  | saved
  | clearing
  | cleared
deriving DecidableEq

structure Host where
  disk : Disk Name Char
  log : List Mark

/-- Whether a system call succeeds, and with which name or after how many bytes. -/
structure Answer where
  ok : Bool
  n : Nat

abbrev Sys := Routine Answer Host

/-- A system call that leaves the directory as it is. -/
def plain : Sys Bool := .call fun a s => (a.ok, s)

def mkstemp : Sys (Option (Nat × Nat)) := .call fun a s =>
  if a.ok && (s.disk.visible (.tmp a.n)).isNone then
    (some (a.n, s.disk.next), { s with disk := s.disk.create (.tmp a.n) })
  else (none, s)

/-- A write that fails may have written a part. -/
def fwrite (file : Nat) (data : List Char) : Sys Bool := .call fun a s =>
  (a.ok, { s with disk := s.disk.append file (if a.ok then data else data.take a.n) })

def fsync (file : Nat) : Sys Bool := .call fun a s =>
  (a.ok, if a.ok then { s with disk := s.disk.fsync file } else s)

def fsyncDir : Sys Bool := .call fun a s =>
  (a.ok, if a.ok then { s with disk := s.disk.fsyncDir } else s)

/-- A name that is not there counts as removed. -/
def unlink (name : Name) : Sys Bool := .call fun a s =>
  (a.ok, if a.ok then { s with disk := s.disk.unlink name } else s)

def link (src dst : Name) : Sys Bool := .call fun a s =>
  match s.disk.link src dst with
  | some disk => (a.ok, if a.ok then { s with disk := disk } else s)
  | none => (false, s)

def rename (src dst : Name) : Sys Bool := .call fun a s =>
  match s.disk.rename src dst with
  | some disk => (a.ok, if a.ok then { s with disk := disk } else s)
  | none => (false, s)

/-- The payload of the current file, if it can be opened. -/
def readCurrent : Sys (Option Payload) := .call fun a s =>
  if a.ok then ((s.disk.read .current).bind (read A), s)
  else (none, { s with log := .unread :: s.log })

/-- `&&`: what comes after a failure is not done. -/
def andThen (ok : Bool) (m : Sys Bool) : Sys Bool := if ok then m else .ret false

/-! ## Save, Clear and Load -/

/-- The temporary file with the whole generation in it, written, synced and closed. -/
def writeTemporary (p : Payload) : Sys (Option (Nat × Nat)) := do
  match ← mkstemp with
  | none => return none
  | some (name, file) =>
    let opened ← plain
    let ok ← andThen opened (fwrite file (framing A p))
    let ok ← andThen ok (fwrite file p.metadata)
    let ok ← andThen ok (fwrite file p.graph)
    let flushed ← andThen opened plain
    let ok ← andThen (ok && flushed) (fsync file)
    let closed ← andThen opened plain
    if ok && closed then return some (name, file)
    else
      let _ ← unlink (.tmp name)
      return none

/-- The current file under the second name too. -/
def backupCurrent : Sys Bool := do
  match ← mkstemp with
  | none => return false
  | some (name, _) =>
    let ok ← plain
    let ok ← andThen ok (unlink (.tmp name))
    let ok ← andThen ok (link .current (.tmp name))
    let ok ← andThen ok (rename (.tmp name) .previous)
    let _ ← unlink (.tmp name)
    return ok

/-- The second reading of the current file, before it is backed up. -/
def readAgain (backup : Bool) : Sys (Option Payload) :=
  if backup then readCurrent A else .ret none

def backupOf (old : Option Payload) : Sys Bool := if old.isSome then backupCurrent else .ret true

def publish (ok : Bool) (name : Nat) : Sys Bool := do
  let ok ← andThen ok fsyncDir
  let ok ← andThen ok (rename (.tmp name) .current)
  let ok ← andThen ok fsyncDir
  let closed ← plain
  return ok && closed

def save (p : Payload) (backup : Bool) : Sys Bool := do
  match ← writeTemporary A p with
  | none => return false
  | some (name, _) =>
    if ← plain then
      let old ← readAgain A backup
      let ok ← backupOf old
      let ok ← publish ok name
      let _ ← unlink (.tmp name)
      return ok
    else
      let _ ← unlink (.tmp name)
      return false

/-- `GraphManager::Save`, of a graph that is not empty. -/
def managerSave (p : Payload) : Sys Unit := do
  Routine.modify fun s => { s with log := .saving p :: s.log }
  let old ← readCurrent A
  let ok ← save A p (old.any (decodes A))
  Routine.whenever ok (Routine.modify fun s => { s with log := .saved :: s.log })

def clear : Sys Unit := do
  Routine.modify fun s => { s with log := .clearing :: s.log }
  if ← plain then
    let ok ← unlink .graph
    let ok ← andThen ok (unlink .metadata)
    let ok ← andThen ok (unlink .scans)
    let ok ← andThen ok fsyncDir
    let ok ← andThen ok (unlink .previous)
    let ok ← andThen ok (unlink .current)
    let synced ← fsyncDir
    let closed ← plain
    Routine.whenever (ok && synced && closed)
      (Routine.modify fun s => { s with log := .cleared :: s.log })
  else return ()

/-- A generation that `Load` takes. -/
def loadable (bytes : Option (List Char)) : Option Payload :=
  (bytes.bind (read A)).filter (decodes A)

/-- The payload that `Load` selects. The legacy pair is for a directory without both modern
    names. -/
def load (d : Disk Name Char) : Option Payload :=
  if (d.visible .current).isSome || (d.visible .previous).isSome then
    (loadable A (d.read .current)).or (loadable A (d.read .previous))
  else
    match d.read .graph, d.read .metadata with
    | some graph, some metadata =>
      if hsized : graph.length < 2 ^ 64 ∧ metadata.length < 2 ^ 64 then
        (some { graph := graph, metadata := metadata, sized := hsized : Payload }).filter (decodes A)
      else none
    | _, _ => none

/-! ## The whole -/

inductive Op
  | save (p : Payload)
  | clear

/-- The end of a process, with the machine or without it. -/
inductive Cut
  | killed
  | power (kept : Name → Nat) (junk : Nat → List Char)

def machine : Machine Empty Op Cut Answer Host where
  irq := nofun
  body
    | .save p => managerSave A p
    | .clear => clear
  cut
    | .killed, s => s
    | .power kept junk, s => { s with disk := s.disk.crash kept junk }
  boot _ := .ret ()

end Checkpoint
end Fusion
end Mowgli
