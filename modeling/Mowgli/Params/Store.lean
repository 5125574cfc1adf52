import Mowgli.Lib.Trace
import Mowgli.Params.Catalog
import Mowgli.Params.ResetMarker

/-!
# Store — the parameter store as its two contexts run it

`src/fw_params.c`. The main loop runs `service`, one statement at a time; the USB
interrupt runs the requests, each to its end, between any two of those statements. A
boot runs `init`, before USB is up, so nothing interrupts it.

The file's statics are split by who writes them. `Own` is what only the foreground
writes, `Shared` is what an interrupt may write too: that an interrupt leaves the first
kind alone is then one equation (`Rely`). A masked section is one statement, and so is a
loop or a run of assignments over `Own`, which no interrupt reads in between.

The environment answers each statement (`Answer`): whether the flash and the backup
registers took a write, what a failed word reads as, what a failed erase has left. A
**cut** can fall anywhere: it keeps the flash and the backup registers, zeroes the RAM
and boots.

Everything worth a sentence in a statement goes to `log`, newest first, with the flash
and the registers as they were at that moment. The code never reads the log.
-/

namespace Mowgli
namespace Params

open Binary32 (Bits)
open Reset (Backup)

/-! ## The statics -/

inductive BootSource where
  | defaults
  | flash
  | flashErased
deriving DecidableEq, Inhabited

inductive Commit where
  | none
  | written
  | unchanged
  | pending
  | logFull
  | error
  | resetPending
deriving DecidableEq, Inhabited

/-- The statics only the foreground writes. -/
structure Own where
  defaults : Nat → Bits
  stored : Nat → Bits
  storedValid : Nat → Bool
  resetArmed : Bool
  resetBlocked : Bool
  lastResetRequestId : Word
  bootSource : BootSource
  nextFree : Nat
  pendingRecord : List Word
  pendingValues : Nat → Bits
  pendingWords : Nat
  pendingPos : Nat
  pendingActive : Bool
  lastReportMs : Word
  lastResetStatusMs : Word

/-- The statics an interrupt writes too. -/
structure Shared where
  values : Nat → Bits
  lastStatus : Nat → Status
  dirtyGroups : Word
  reportPending : Word
  storeReportPending : Bool
  unknownReportPending : Bool
  unknownReportId : BitVec 16
  commitRequested : Bool
  resetRequested : Bool
  resetRequestId : Word
  lastCommit : Commit

/-- The C runtime's zeroes. -/
def Own.zero : Own :=
  { defaults := fun _ => 0#32, stored := fun _ => 0#32, storedValid := fun _ => false
    resetArmed := false, resetBlocked := false, lastResetRequestId := 0#32
    bootSource := .defaults, nextFree := 0, pendingRecord := [], pendingValues := fun _ => 0#32
    pendingWords := 0, pendingPos := 0, pendingActive := false, lastReportMs := 0#32
    lastResetStatusMs := 0#32 }

def Shared.zero : Shared :=
  { values := fun _ => 0#32, lastStatus := fun _ => .ok, dirtyGroups := 0#32
    reportPending := 0#32, storeReportPending := false, unknownReportPending := false
    unknownReportId := 0#16, commitRequested := false, resetRequested := false
    resetRequestId := 0#32, lastCommit := .none }

/-! ## What is observed -/

/-- `pkt_param_value_t`. -/
structure ValuePacket where
  paramId : BitVec 16
  status : Status
  flags : BitVec 8
  value : Bits
  defaultValue : Bits
  min : Bits
  max : Bits

def FLAG_PERSISTED : BitVec 8 := 1#8
def FLAG_VOLATILE : BitVec 8 := 2#8

def ValuePacket.persisted (p : ValuePacket) : Bool := (p.flags &&& FLAG_PERSISTED) = FLAG_PERSISTED

/-- `pkt_param_store_status_t`. -/
structure StatusPacket where
  bootSource : BootSource
  lastCommit : Commit
  recordsLeft : Nat
  paramCount : Nat
  resetRequestId : Word

inductive Obs where
  | booted
  /-- `fw_param_store_erase` ran and returned this. -/
  | erase (ok : Bool)
  /-- A word was handed to the flash. -/
  | program (at' : Nat) (value : Word)
  /-- The last word of a record was programmed. -/
  | committed
  /-- `fw_params_request_reset` was called and returned this. -/
  | resetCall (id : Word) (accepted : Bool)
  /-- The service took the queued request. -/
  | consumed (id : Word)
  /-- A commit took this snapshot of the applied values. -/
  | snapshot (values : Nat → Bits)
  /-- A commit of this snapshot found nothing to write. -/
  | unchanged (snapshot : Nat → Bits)
  /-- A value report read the applied value. -/
  | valueRead (index : Nat) (value : Bits)
  | value (index : Nat) (packet : ValuePacket)
  | unknownValue (id : BitVec 16)
  /-- A status report, and the values applied when it was sent. -/
  | status (packet : StatusPacket) (applied : Nat → Bits)
  /-- `fw_params_set` applied this value. -/
  | applied (index : Nat) (value : Bits)

/-- An observation with the flash and the registers of its moment. -/
structure Mark where
  flash : Flash
  rtc : Backup
  obs : Obs

structure Store where
  flash : Flash
  rtc : Backup
  own : Own
  shared : Shared
  /-- USB is up, and its interrupt with it. -/
  usbUp : Bool
  log : List Mark

namespace Store

def note (s : Store) (obs : Obs) : Store := { s with log := ⟨s.flash, s.rtc, obs⟩ :: s.log }

def setOwn (s : Store) (f : Own → Own) : Store := { s with own := f s.own }

def setShared (s : Store) (f : Shared → Shared) : Store := { s with shared := f s.shared }

end Store

/-- What the environment answers to one statement. -/
structure Answer where
  programOk : Bool
  damage : Word
  eraseOk : Bool
  eraseLeaves : Flash
  rtcTaken : Bool

/-- A firmware image on its board: its table, and the length of the parameter area. -/
structure Build where
  table : Table
  areaWords : Nat

/-- The Yardforce 500: four flash pages of 2 KB. -/
def Build.yardforce : Build := ⟨Table.yardforce, 2048⟩

/-- A foreground routine of the store. -/
abbrev Task (α : Type) := Routine Answer Store α

def getOwn {α : Type} (r : Own → α) : Task α := .get fun s => r s.own
def getShared {α : Type} (r : Shared → α) : Task α := .get fun s => r s.shared
def setOwn (f : Own → Own) : Task Unit := .modify fun s => s.setOwn f
def setShared (f : Shared → Shared) : Task Unit := .modify fun s => s.setShared f

/-- The backup registers as a part of the whole. -/
def rtcPart : Part Store Backup where
  get := Store.rtc
  set := fun rtc s => { s with rtc := rtc }
  get_set := fun _ _ => rfl

def onRtc {α : Type} (m : Reset.Access α) : Task α := m.within rtcPart Answer.rtcTaken

variable (B : Build)

/-! ## Flash access -/

/-- `fw_param_store_erase`. -/
def erase : Task Bool :=
  .call fun w s =>
    (w.eraseOk, { s.note (.erase w.eraseOk) with
      flash := if w.eraseOk then fun _ => Log.ERASED else w.eraseLeaves })

/-- What a word reads as after it has been programmed: a success clears bits, a failure
    leaves the requested word damaged. -/
def programmed (w : Answer) (old value : Word) : Word :=
  if w.programOk then old &&& value else value ^^^ w.damage

/-- Where the next word of the pending record goes, and the word. -/
def Own.cursor (o : Own) : Nat := o.nextFree + o.pendingPos
def Own.nextWord (o : Own) : Word := o.pendingRecord.getD o.pendingPos 0#32

/-- The next word handed to the flash, whatever becomes of it. -/
def Store.programming (s : Store) (w : Answer) : Store :=
  { s.note (.program s.own.cursor s.own.nextWord) with
    flash := s.flash.write s.own.cursor (programmed w (s.flash s.own.cursor) s.own.nextWord) }

/-- `fw_param_store_program_word` for the next word of the pending record. -/
def programNext (w : Answer) (s : Store) : Bool × Store :=
  if s.own.cursor ≥ B.areaWords then (false, s)
  else if w.programOk then
    (true, if s.own.pendingPos + 1 = s.own.pendingWords then (s.programming w).note .committed
      else s.programming w)
  else (false, s.programming w)

def programWord : Task Bool := .call (programNext B)

/-! ## Boot -/

/-- The effect of the coerced default of one parameter; a rejected one leaves the 0.0f
    the source starts from. -/
def bootDefault (i : Nat) : Bits :=
  match coerce (B.table.spec i) (B.table.compiledDefault (B.table.spec i).id) with
  | some (value, _) => value
  | none => 0#32

/-- The first assignments of `fw_params_init`. -/
def initTable (s : Store) : Store :=
  { s with
    own := { s.own with
      bootSource := .defaults
      pendingActive := false
      resetArmed := false
      resetBlocked := false
      lastResetRequestId := s.rtc.lastRequestId
      lastResetStatusMs := 0#32
      defaults := bootDefault B
      storedValid := fun _ => false }
    shared := { s.shared with
      lastCommit := .none
      commitRequested := false
      resetRequested := false
      resetRequestId := 0#32
      dirtyGroups := 0#32
      reportPending := 0#32
      storeReportPending := false
      unknownReportPending := false
      values := bootDefault B
      lastStatus := fun _ => .ok } }

/-- One entry of `fw_params_load_record`. -/
def loadEntry (s : Store) (e : Log.Entry) : Store :=
  match B.table.index e.1 with
  -- A parameter this firmware no longer has.
  | none => s
  | some i =>
    if B.table.isVolatile i then s
    else
      { s with
        shared := { s.shared with
          values := match coerce (B.table.spec i) e.2 with
            | some (value, _) => fun j => if j = i then value else s.shared.values j
            | none => s.shared.values }
        -- The raw stored value: if the envelope moved, the next commit rewrites the record.
        own := { s.own with
          stored := fun j => if j = i then e.2 else s.own.stored j
          storedValid := fun j => if j = i then true else s.own.storedValid j } }

/-- `fw_params_load_record` of the record at `off`. -/
def loadRecord (off : Nat) (s : Store) : Store :=
  (Log.entries s.flash off).foldl (loadEntry B) s

/-- The record found is loaded, and the append point taken from the scan. -/
def loadScan (sc : Log.Scan) (s : Store) : Store :=
  let s := match sc.lastValid with
    | some off => (loadRecord B off s).setOwn fun o => { o with bootSource := .flash }
    | none => s
  s.setOwn fun o => { o with nextFree := sc.nextFree }

def areaIsErased (s : Store) : Bool := Log.erasedFrom s.flash B.areaWords 0

/-- Erase, verify, clear: the three conditions of a consumed reset, in their order. -/
def eraseAndClear : Task Bool := do
  if ← erase then
    if ← .get (areaIsErased B) then
      let id ← getShared Shared.resetRequestId
      onRtc (Reset.clear id)
    else pure false
  else pure false

/-- `fw_params_init` with a reset pending. -/
def initReset : Task Unit := do
  .modify fun s => { s with
    own := { s.own with resetArmed := true, nextFree := B.areaWords }
    shared := { s.shared with resetRequestId := s.own.lastResetRequestId } }
  if ← eraseAndClear B then
    .modify fun s => { s with
      own := { s.own with bootSource := .flashErased, nextFree := 0, resetArmed := false }
      shared := { s.shared with lastCommit := .none } }
  else
    .modify fun s => { s with
      own := { s.own with resetBlocked := true }
      shared := { s.shared with lastCommit := .resetPending } }

/-- The automatic recovery erase, when nothing committed can be lost. -/
def initErase : Task Unit := do
  if ← erase then
    setOwn fun o => { o with
      nextFree := 0, bootSource := .flashErased, storedValid := fun _ => false }
  else
    -- Nothing appendable until a boot manages to erase.
    .modify fun s => { s with
      own := { s.own with nextFree := B.areaWords }
      shared := { s.shared with lastCommit := .error } }

/-- `fw_params_init` without a reset pending. -/
def initLog : Task Unit := do
  let sc ← .get fun s => Log.scan s.flash B.areaWords
  .modify (loadScan B sc)
  match Log.appendPoint sc B.table.recordWords B.areaWords with
  | .ready _ => pure ()
  | .retained =>
    .modify fun s => { s with
      own := { s.own with nextFree := B.areaWords }
      shared := { s.shared with lastCommit := .logFull } }
  | .erase => initErase B

/-- `fw_params_init`. -/
def init : Task Unit := do
  .modify (initTable B)
  if ← .get fun s => s.rtc.isPending then initReset B
  else initLog B

/-- A boot, up to the moment USB can interrupt. -/
def boot : Task Unit := do
  init B
  .modify fun s => { s with usbUp := true }

/-! ## The commit -/

/-- The mirror of the newest record agrees with `snapshot` on every persistent
    parameter. -/
def isUnchanged (snapshot : Nat → Bits) (o : Own) : Bool :=
  (List.range B.table.count).all fun i =>
    B.table.isVolatile i || (o.storedValid i && o.stored i == snapshot i)

/-- `fw_params_mark_stored`. -/
def markStored (values : Nat → Bits) (o : Own) : Own :=
  { o with
    stored := fun i => if i < B.table.count ∧ !B.table.isVolatile i then values i else o.stored i
    storedValid := fun i =>
      if i < B.table.count ∧ !B.table.isVolatile i then true else o.storedValid i }

/-- What a commit reports while a reset owns the store. -/
def refusedCommit (o : Own) : Commit := if o.resetArmed then .resetPending else .error

/-- `s_reset_armed || s_reset_blocked`. -/
def armedOrBlocked : Task Bool := do
  if ← getOwn Own.resetArmed then pure true
  else getOwn Own.resetBlocked

/-- `s_last_commit` and the report of it. -/
def reportCommit (c : Own → Commit) : Task Unit := do
  .modify fun s => s.setShared fun h => { h with lastCommit := c s.own }
  setShared fun h => { h with storeReportPending := true }

def beginCommit (snapshot : Nat → Bits) (record : List Word) : Task Unit := do
  setOwn fun o => { o with pendingRecord := record }
  if ← getOwn fun o => decide (o.nextFree + record.length > B.areaWords) then
    reportCommit fun _ => .logFull
  else
    setOwn fun o => { o with
      pendingValues := snapshot
      pendingWords := record.length
      pendingPos := 0
      pendingActive := true }
    setShared fun h => { h with lastCommit := .pending }

def commitSnapshot (snapshot : Nat → Bits) : Task Unit := do
  if ← getOwn (isUnchanged B snapshot) then
    .modify fun s => (s.note (.unchanged snapshot)).setShared fun h =>
      { h with lastCommit := .unchanged }
    setShared fun h => { h with storeReportPending := true }
  else
    match B.table.encode snapshot with
    | none => reportCommit fun _ => .logFull
    | some record => beginCommit B snapshot record

/-- `fw_params_start_commit`. -/
def startCommit : Task Unit := do
  if ← armedOrBlocked then reportCommit refusedCommit
  else
    -- The masked copy of the applied values.
    let snapshot ← .call fun _ s => (s.shared.values, s.note (.snapshot s.shared.values))
    commitSnapshot B snapshot

def allReports : Word :=
  if B.table.count ≥ 32 then 0xFFFFFFFF#32 else (1#32 <<< B.table.count) - 1#32

def queueAllReports (h : Shared) : Shared :=
  { h with reportPending := allReports B, storeReportPending := true }

/-- The end of `fw_params_step_commit`, after the last word. -/
def finishCommit : Task Unit := do
  setOwn fun o => markStored B o.pendingValues
    { o with pendingActive := false, nextFree := o.nextFree + o.pendingWords }
  setShared fun h => { h with lastCommit := .written }
  setShared (queueAllReports B)

/-- `fw_params_step_commit`. -/
def stepCommit : Task Unit := do
  if ← programWord B then
    setOwn fun o => { o with pendingPos := o.pendingPos + 1 }
    if ← getOwn fun o => decide (o.pendingPos < o.pendingWords) then pure ()
    else finishCommit B
  else
    setOwn fun o => { o with pendingActive := false, nextFree := B.areaWords }
    reportCommit fun _ => .error

/-! ## Reports -/

def valuePacket (index : Nat) (status : Status) (value : Bits) (o : Own) : ValuePacket where
  paramId := (B.table.spec index).id
  status := status
  flags :=
    if B.table.isVolatile index then FLAG_VOLATILE
    else if o.storedValid index && o.stored index == value then FLAG_PERSISTED
    else 0#8
  value := value
  defaultValue := o.defaults index
  min := (B.table.spec index).min
  max := (B.table.spec index).max

/-- `fw_params_send_value`. -/
def sendValue (index : Nat) : Task Unit := do
  let status ← getShared fun h => h.lastStatus index
  let value ← .call fun _ s =>
    (s.shared.values index, s.note (.valueRead index (s.shared.values index)))
  .modify fun s => s.note (.value index (valuePacket B index status value s.own))

def statusPacket (s : Store) : StatusPacket where
  bootSource := s.own.bootSource
  lastCommit := s.shared.lastCommit
  recordsLeft := min ((B.areaWords - s.own.nextFree) / B.table.recordWords) 0xFFFF
  paramCount := B.table.count
  resetRequestId := s.own.lastResetRequestId

/-- `fw_params_send_store_status`. -/
def sendStoreStatus : Task Unit :=
  .modify fun s => s.note (.status (statusPacket B s) s.shared.values)

/-- The lowest set bit. -/
def lowestBit (pending : Word) : Word := pending &&& (0#32 - pending)

/-- `fw_params_send_one_report`. -/
def sendOneReport : Task Unit := do
  if ← getShared Shared.unknownReportPending then
    let id ← .call fun _ s => (s.shared.unknownReportId,
      s.setShared fun h => { h with unknownReportPending := false })
    .modify fun s => s.note (.unknownValue id)
  else
    let bit ← .call fun _ s => (lowestBit s.shared.reportPending,
      s.setShared fun h =>
        { h with reportPending := h.reportPending &&& ~~~lowestBit h.reportPending })
    if bit = 0#32 then
      if ← getShared Shared.storeReportPending then
        setShared fun h => { h with storeReportPending := false }
        sendStoreStatus B
      else pure ()
    else if bit.toNat.log2 < B.table.count then sendValue B bit.toNat.log2
    else pure ()

/-! ## The service routine -/

/-- The registers are armed with the request, or the store is blocked for this boot. -/
def armReset (requestId : Word) : Task Unit := do
  if ← onRtc (Reset.arm requestId) then
    setOwn fun o => { o with resetArmed := true }
    setOwn fun o => { o with lastResetRequestId := requestId }
    setShared fun h => { h with lastCommit := .resetPending }
  else
    setOwn fun o => { o with resetBlocked := true }
    if ← .get fun s => s.rtc.isPending && s.rtc.lastRequestId == requestId then
      setOwn fun o => { o with resetArmed := true }
      setOwn fun o => { o with lastResetRequestId := requestId }
      setShared fun h => { h with lastCommit := .resetPending }
    else setShared fun h => { h with lastCommit := .error }

def takeReset (now : Word) : Task Unit := do
  let requestId ← .call fun _ s => (s.shared.resetRequestId, s.note (.consumed s.shared.resetRequestId))
  -- An older append may leave a torn tail, but no word is programmed from here on.
  setOwn fun o => { o with pendingActive := false }
  setShared fun h => { h with commitRequested := false }
  armReset requestId
  setOwn fun o => if o.resetArmed then { o with lastResetStatusMs := now } else o
  -- The armed or blocked state is published before request ownership is released.
  setShared fun h => { h with resetRequested := false }
  setShared fun h => { h with storeReportPending := true }

def serviceReset (now : Word) : Task Unit := do
  if ← getShared Shared.resetRequested then takeReset now
  else pure ()

def refuseCommit : Task Unit := do
  if ← getShared Shared.commitRequested then
    setShared fun h => { h with commitRequested := false }
    reportCommit refusedCommit
  else pure ()

def serviceCommit : Task Unit := do
  if ← armedOrBlocked then
    refuseCommit
    setOwn fun o => { o with pendingActive := false }
  else if ← getOwn Own.pendingActive then stepCommit B
  else if ← getShared Shared.commitRequested then
    setShared fun h => { h with commitRequested := false }
    startCommit B
  else pure ()

def REPORT_SPACING_MS : Word := 5#32
def RESET_STATUS_INTERVAL_MS : Word := 1000#32

def serviceStatus (now : Word) : Task Unit := do
  if ← getOwn fun o =>
      o.resetArmed && decide (RESET_STATUS_INTERVAL_MS ≤ now - o.lastResetStatusMs) then
    setOwn fun o => { o with lastResetStatusMs := now }
    setShared fun h => { h with storeReportPending := true }
  else pure ()

def serviceReport (now : Word) : Task Unit := do
  if ← getOwn fun o => decide (REPORT_SPACING_MS ≤ now - o.lastReportMs) then
    setOwn fun o => { o with lastReportMs := now }
    sendOneReport B
  else pure ()

/-- `fw_params_service`. -/
def service (now : Word) : Task Unit := do
  serviceReset now
  serviceCommit B
  serviceStatus now
  serviceReport B now

/-! ## The interrupt -/

/-- The calls the USB interrupt makes, each run to its end. -/
inductive Irq where
  | set (id : BitVec 16) (requested : Bits)
  | requestReport (id : BitVec 16)
  | requestCommit
  | requestReset (id : Word)
  | reportResetRejected

def unknownReport (id : BitVec 16) (h : Shared) : Shared :=
  { h with unknownReportId := id, unknownReportPending := true }

/-- `fw_params_set`. -/
def set (id : BitVec 16) (requested : Bits) (h : Shared) : Shared :=
  match B.table.index id with
  | none => unknownReport id h
  | some i =>
    let report := h.reportPending ||| (1#32 <<< i)
    match coerce (B.table.spec i) requested with
    | none =>
      { h with
        lastStatus := fun j => if j = i then .rejected else h.lastStatus j
        reportPending := report }
    | some (value, status) =>
      { h with
        lastStatus := fun j => if j = i then status else h.lastStatus j
        values := fun j => if j = i then value else h.values j
        dirtyGroups := h.dirtyGroups ||| (1#32 <<< (B.table.spec i).group.code)
        reportPending := report }

/-- `fw_params_request_report`. -/
def requestReport (id : BitVec 16) (h : Shared) : Shared :=
  if id = ID_ALL then queueAllReports B h
  else
    match B.table.index id with
    | none => unknownReport id h
    | some i => { h with reportPending := h.reportPending ||| (1#32 <<< i) }

/-- `fw_params_request_commit`. -/
def requestCommit (o : Own) (h : Shared) : Shared :=
  if o.resetArmed || o.resetBlocked then
    { h with lastCommit := refusedCommit o, storeReportPending := true }
  else { h with commitRequested := true }

/-- `fw_params_request_reset`. -/
def requestReset (id : Word) (o : Own) (h : Shared) : Bool × Shared :=
  if id = 0#32 then (false, h)
  else if o.resetArmed then
    if h.resetRequestId ≠ id then (false, h) else (true, { h with storeReportPending := true })
  else if o.resetBlocked then (false, h)
  else if h.resetRequested then (h.resetRequestId == id, h)
  else if o.lastResetRequestId = id then (false, h)
  else (true, { h with resetRequestId := id, resetRequested := true })

/-- `fw_params_report_reset_rejected`. -/
def reportResetRejected (o : Own) (h : Shared) : Shared :=
  { h with lastCommit := refusedCommit o, storeReportPending := true }

/-- The return of `fw_params_request_reset` is observed. -/
def Store.called (s : Store) (id : Word) (r : Bool × Shared) : Store :=
  { s.note (.resetCall id r.1) with shared := r.2 }

/-- The value `fw_params_set` applies is observed. -/
def Store.noteSet (id : BitVec 16) (requested : Bits) (s : Store) : Store :=
  match B.table.index id with
  | none => s
  | some i =>
    match coerce (B.table.spec i) requested with
    | none => s
    | some (value, _) => s.note (.applied i value)

/-- One interrupt; before USB is up there is none. -/
def irq (i : Irq) (s : Store) : Store :=
  if s.usbUp then
    match i with
    | .set id requested => (s.noteSet B id requested).setShared (set B id requested)
    | .requestReport id => s.setShared (requestReport B id)
    | .requestCommit => s.setShared (requestCommit s.own)
    | .requestReset id => s.called id (requestReset id s.own s.shared)
    | .reportResetRejected => s.setShared (reportResetRejected s.own)
  else s

/-! ## The machine -/

/-- The foreground routines of the store. -/
inductive Call where
  | service (now : Word)
  | takeDirtyGroups
  | markAllDirty

def callBody : Call → Task Unit
  | .service now => service B now
  -- Each of the other two is one masked section.
  | .takeDirtyGroups => setShared fun h => { h with dirtyGroups := 0#32 }
  | .markAllDirty => setShared fun h =>
      { h with dirtyGroups := (1#32 <<< GROUP_COUNT) - 1#32 }

/-- Power lost and back: the flash and the registers stay. -/
def cut (s : Store) : Store :=
  { s.note .booted with own := .zero, shared := .zero, usbUp := false }

def machine : Machine Irq Call Unit Answer Store where
  irq := irq B
  body := callBody B
  cut := fun _ => cut
  boot := fun _ => boot B

/-- What happens to a store, with its events. -/
abbrev StoreEvent := Event Irq Call Unit Answer

/-- A store that is switched on over a flash and backup registers of any content. -/
def start (flash : Flash) (rtc : Backup) : Config Answer Store :=
  (machine B).booted () ⟨flash, rtc, .zero, .zero, false, []⟩

end Params
end Mowgli
