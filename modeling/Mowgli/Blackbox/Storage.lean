import Mathlib.Data.List.AList
import Mathlib.Data.String.Basic

/-!
# Storage — snapshots in a directory

`storage.go`: a capture is written under a temporary name and renamed once it is whole; **what is
older goes only after that**. A completed snapshot is a regular file under a name of the one form.

Each step of a call may fail, as the call finds it (`PersistFinds` and the like). `json.Encoder` is
a parameter; `bufio.Writer` cuts what is written into the pieces that reach the limit.
-/

namespace Mowgli
namespace Blackbox

abbrev Bytes := List UInt8

/-! ## Names -/

def literal (s : String) : List (Char → Bool) := s.toList.map fun c d => c == d

def digit (c : Char) : Bool := c.isDigit

def hexDigit (c : Char) : Bool := c.isDigit || ('a' ≤ c && c ≤ 'f')

def snapshotPattern : List (Char → Bool) :=
  literal "blackbox-" ++ List.replicate 8 digit ++ literal "T" ++ List.replicate 6 digit ++
    literal "." ++ List.replicate 9 digit ++ literal "Z-" ++ List.replicate 16 hexDigit ++
    literal ".jsonl"

def matchesPattern : List (Char → Bool) → List Char → Bool
  | [], [] => true
  | p :: ps, c :: cs => p c && matchesPattern ps cs
  | _, _ => false

/-- `snapshotName.MatchString`. -/
def snapshotName (name : String) : Bool := matchesPattern snapshotPattern name.toList

/-! ## The directory -/

structure Entry where
  /-- Not a symbolic link, a directory or a device. -/
  regular : Bool
  bytes : Bytes

abbrev Directory := AList fun _ : String => Entry

/-- `root.Rename`, over what the name stood for. -/
def Rename (d : Directory) (src dst : String) : Directory :=
  match d.lookup src with
  | some e => (d.erase src).insert dst e
  | none => d

structure Config where
  MaxSnapshots : Int
  MaxDiskBytes : Int
  MinFreeDiskBytes : Int

inductive StorageError where
  /-- Whatever the operating system or the encoder said. -/
  | system
  | tooLarge
  | insufficientSpace
  | retentionExceeded
  | cannotSatisfy
  | invalidName
  | notRegular
  /-- `publishedError`: the snapshot is complete and the cleanup failed. -/
  | published (e : StorageError)
  deriving DecidableEq

/-- What a call leaves, and every directory on the way there. -/
structure Outcome where
  dir : Directory
  moments : List Directory := []
  error : Option StorageError := none

def Outcome.after (before : List Directory) (o : Outcome) : Outcome :=
  { o with moments := before ++ o.moments }

structure StorageEntry where
  name : String
  size : Int

def maxInt64 : Int := 9223372036854775807

def scanFrom : List (Sigma fun _ : String => Entry) → List StorageEntry → Int →
    Option (List StorageEntry × Int)
  | [], files, total => some (files, total)
  | e :: rest, files, total =>
    if snapshotName e.1 = false ∨ e.2.regular = false then scanFrom rest files total
    else if maxInt64 - total < e.2.bytes.length then none
    else scanFrom rest (files ++ [⟨e.1, e.2.bytes.length⟩]) (total + e.2.bytes.length)

/-- Sixteen batches of 128 entries are too many. -/
def scanCompleted (d : Directory) (works : Bool) : Option (List StorageEntry × Int) :=
  if works = false ∨ 2048 ≤ d.entries.length then none else scanFrom d.entries [] 0

/-! ## prune -/

/-- What `removeCompleted` comes to. -/
inductive Removal where
  | removed
  /-- The file was gone. -/
  | vanished
  | failed

structure PruneFinds where
  openRoot : Bool
  scan : Bool
  removeCompleted : String → Removal

variable (cfg : Config)

def pruneFrom (keep : String) (removeCompleted : String → Removal) :
    List StorageEntry → Int → Int → Directory → Outcome
  | [], count, total, d =>
    { dir := d
      error :=
        if cfg.MaxSnapshots < count ∨ cfg.MaxDiskBytes < total then some .cannotSatisfy
        else none }
  | file :: rest, count, total, d =>
    if count ≤ cfg.MaxSnapshots ∧ total ≤ cfg.MaxDiskBytes then { dir := d }
    else if file.name = keep then pruneFrom keep removeCompleted rest count total d
    else
      match removeCompleted file.name with
      | .failed => { dir := d, error := some .system }
      | _ =>
        (pruneFrom keep removeCompleted rest (count - 1) (total - file.size)
          (d.erase file.name)).after [d.erase file.name]

def sorted (files : List StorageEntry) : List StorageEntry :=
  files.mergeSort fun a b => decide (a.name ≤ b.name)

def prune (keep : String) (finds : PruneFinds) (d : Directory) : Outcome :=
  if finds.openRoot = false then { dir := d, error := some .system }
  else
    match scanCompleted d finds.scan with
    | none => { dir := d, error := some .system }
    | some (files, total) =>
      pruneFrom cfg keep finds.removeCompleted (sorted files) files.length total d

/-! ## Writing -/

structure LimitWriter where
  written : Bytes
  remaining : Int

/-- `io` is after how many bytes the write below fails, if it does. -/
def LimitWriter.Write (w : LimitWriter) (p : Bytes) (io : Option Nat) : LimitWriter × Bool :=
  if w.remaining < p.length then (w, false)
  else
    match io with
    | none => (⟨w.written ++ p, w.remaining - p.length⟩, true)
    | some n => (⟨w.written ++ p.take n, w.remaining - (p.take n).length⟩, false)

/-- The writer after each piece, and whether all of them went through. -/
def writeAll (io : Bytes → Option Nat) : List Bytes → LimitWriter → List LimitWriter × Bool
  | [], _ => ([], true)
  | p :: rest, w =>
    let r := w.Write p (io w.written)
    if r.2 then
      let later := writeAll io rest r.1
      (r.1 :: later.1, later.2)
    else ([r.1], false)

def bufferSize : Nat := 32768

/-- `bufio.Writer.Write`: what goes on, and what stays in the buffer. -/
def bufferWrite (buffer p : Bytes) : List Bytes × Bytes :=
  let available := bufferSize - buffer.length
  if p.length ≤ available then ([], buffer ++ p)
  else if buffer.isEmpty then ([p], [])
  else
    let full := buffer ++ p.take available
    let rest := p.drop available
    if bufferSize < rest.length then ([full, rest], []) else ([full], rest)

/-- The pieces of what is encoded line by line, with a flush at the end; a line that does not
    encode ends it. -/
def pieces : Bytes → List (Option Bytes) → List Bytes × Bool
  | buffer, [] => (if buffer.isEmpty then [] else [buffer], true)
  | _, none :: _ => ([], false)
  | buffer, some line :: lines =>
    let written := bufferWrite buffer line
    let later := pieces written.2 lines
    (written.1 ++ later.1, later.2)

/-! ## persist -/

structure Observation where
  receivedAt : Int
  topic : String
  data : Bytes

structure Capture (M : Type) where
  CaptureID : String
  metadata : M
  trigger : Int
  observations : List Observation
  bytes : Int
  /-- `trigger` makes the id from the time and eight random bytes. -/
  named : snapshotName (CaptureID ++ ".jsonl") = true

/-- `json.Encoder`, a line for each value. -/
structure Encoder (M : Type) where
  metadata : M → Option Bytes
  observation : Int → Observation → Option Bytes
  summary : Nat → Option Bytes

variable {M : Type}

def Capture.name (c : Capture M) : String := c.CaptureID ++ ".jsonl"

def Capture.temp (c : Capture M) : String := c.name ++ ".partial"

/-- The header, the observations and the summary. -/
def Encoder.lines (enc : Encoder M) (c : Capture M) : List (Option Bytes) :=
  enc.metadata c.metadata :: c.observations.map (enc.observation c.trigger) ++
    [enc.summary c.observations.length]

structure PersistFinds where
  /-- `freeDisk`, where it is known. -/
  free : Option Int
  openRoot : Bool
  scan : Bool
  openFile : Bool
  io : Bytes → Option Nat
  sync : Bool
  close : Bool
  rename : Bool
  removeTemp : Bool
  prune : PruneFinds

def estimate (c : Capture M) : Int := c.bytes * 2 + 16384

def insufficient (c : Capture M) (free : Option Int) : Bool :=
  match free with
  | none => false
  | some free =>
    free < cfg.MinFreeDiskBytes || free - cfg.MinFreeDiskBytes < estimate c

/-- What the temporary file is after each piece. -/
def Capture.written (c : Capture M) (d : Directory) (writers : List LimitWriter) :
    List Directory :=
  writers.map fun w => d.insert c.temp ⟨true, w.written⟩

/-- The tail of `persist`, from the open temporary file on. -/
def publish (enc : Encoder M) (c : Capture M) (finds : PersistFinds) (d : Directory) : Outcome :=
  let cut := pieces [] (enc.lines c)
  let done := writeAll finds.io cut.1 ⟨[], cfg.MaxDiskBytes⟩
  let moments := d.insert c.temp ⟨true, []⟩ :: c.written d done.1
  let last := moments.getLastD d
  if cut.2 = false ∨ done.2 = false ∨ finds.sync = false ∨ finds.close = false ∨
      finds.rename = false then
    let left := if finds.removeTemp then last.erase c.temp else last
    { dir := left, moments := moments ++ [left], error := some .system }
  else
    let published := Rename last c.temp c.name
    let pruned := prune cfg c.name finds.prune published
    { pruned with error := pruned.error.map .published }.after (moments ++ [published])

def persist (enc : Encoder M) (c : Capture M) (finds : PersistFinds) (d : Directory) : Outcome :=
  if cfg.MaxDiskBytes < estimate c then { dir := d, error := some .tooLarge }
  else if insufficient cfg c finds.free then { dir := d, error := some .insufficientSpace }
  else if finds.openRoot = false then { dir := d, error := some .system }
  else
    match scanCompleted d finds.scan with
    | none => { dir := d, error := some .system }
    | some (files, total) =>
      if cfg.MaxSnapshots < files.length ∨ cfg.MaxDiskBytes < total then
        { dir := d, error := some .retentionExceeded }
      -- The temporary file is opened only where there is none.
      else if finds.openFile = false ∨ (d.lookup c.temp).isSome = true then
        { dir := d, error := some .system }
      else publish cfg enc c finds d

/-! ## Delete -/

structure DeleteFinds where
  openRoot : Bool
  lstat : Bool
  remove : Bool

def Delete (name : String) (finds : DeleteFinds) (d : Directory) : Outcome :=
  if snapshotName name = false then { dir := d, error := some .invalidName }
  else if finds.openRoot = false ∨ finds.lstat = false then { dir := d, error := some .system }
  else
    match d.lookup name with
    | none => { dir := d, error := some .system }
    | some e =>
      if e.regular = false then { dir := d, error := some .notRegular }
      else if finds.remove = false then { dir := d, error := some .system }
      else { dir := d.erase name, moments := [d.erase name] }

/-! ## Calls -/

inductive Call (M : Type) where
  | persist (c : Capture M) (finds : PersistFinds)
  | prune (keep : String) (finds : PruneFinds)
  | Delete (name : String) (finds : DeleteFinds)

def perform (enc : Encoder M) (d : Directory) : Call M → Outcome
  | .persist c finds => persist cfg enc c finds d
  | .prune keep finds => prune cfg keep finds d
  | .Delete name finds => Delete name finds d

/-- The directory after calls, the last one first. -/
def directoryAfter (enc : Encoder M) (start : Directory) : List (Call M) → Directory
  | [] => start
  | call :: past => (perform cfg enc (directoryAfter enc start past) call).dir

end Blackbox
end Mowgli
