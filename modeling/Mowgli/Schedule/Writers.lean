import Mowgli.Schedule.Store

/-!
# Writers — the passes of the scheduler, and the users beside it

`scheduler.go`: whether a record is due at a reading of the clock, whether the mower may be
started, and the calls that start it. A pass goes through the keys of the store; for each it
reads the record, and what comes of it is a `Verdict`. **Only what the verdict records is
written**, to the record as it is stored by then.

What the pass is told from outside comes with it: the status of the mower, the soil, the
areas of the map server and the answers to START.
-/

namespace Mowgli
namespace Schedule

section

open Clock (Reading)

/-- What the scheduler knows of the mower, each with whether it is known. -/
structure Status where
  state : UInt8
  stateName : String
  hasHighLevelStatus : Bool
  emergency : Bool
  highLevelEmergency : Bool
  hasEmergencyStatus : Bool
  sessionActive : Bool
  sessionKnown : Bool
  resumeAvailable : Bool
  resumeKnown : Bool

def safeToStart (s : Status) : Bool :=
  if !s.hasHighLevelStatus || !s.hasEmergencyStatus || (s.emergency || s.highLevelEmergency) ||
      !s.sessionKnown || !s.resumeKnown then false
  else if s.state != 1 || s.sessionActive || s.resumeAvailable then false
  else s.stateName == "IDLE" || s.stateName == "IDLE_DOCKED" || s.stateName == "CHARGING"

/-- The answer to a `get_mowing_area` call. -/
inductive AreaAnswer
  | failed (err : String)
  | endOfList
  | area (id : UInt32) (isNavigationArea : Bool)

def maxAreaEnumeration : Nat := 100
def maxUint8 : Nat := 255

/-- The walk over the areas, with `n` of them left from index `i`. -/
def walkAreas (areaID : UInt32) (call : Nat → AreaAnswer) : Nat → Nat → Except String Nat
  | 0, _ => .error "the scheduled area no longer exists"
  | n + 1, i =>
    match call i with
    | .failed err => .error s!"could not look up the area ({err})"
    | .endOfList => .error "the scheduled area no longer exists"
    | .area id isNavigationArea =>
      if id ≠ areaID then walkAreas areaID call n (i + 1)
      else if isNavigationArea then
        .error "the scheduled area is a navigation area and cannot be mowed"
      else if maxUint8 < i then
        .error "the scheduled area index is out of range for start_in_area"
      else .ok i

def resolveAreaIndex (areaID : UInt32) (call : Nat → AreaAnswer) : Except String Nat :=
  walkAreas areaID call maxAreaEnumeration 0

/-- `shouldRun`. -/
def shouldRun (sched : Record) (currentDay : Int) (currentTime : String) (now : Int) : Bool :=
  if sched.time != currentTime then false
  else if !sched.daysOfWeek.contains currentDay then false
  else
    match sched.lastRun with
    | some lastRun => !decide (Clock.sub now lastRun < 2 * Clock.minute)
    | none => true

/-- What a pass finds outside, for one record. -/
structure World where
  status : Status
  /-- The reason of a wet verdict. -/
  soil : Option String
  areas : Nat → AreaAnswer
  /-- The answer to START; `none` is a call that failed. -/
  start : Option Bool

inductive Verdict
  /-- Nothing comes of the record. -/
  | pass
  | skip (reason : String)
  /-- START was sent, for one area or for all of them. -/
  | started (area : Option Nat) (answer : Option Bool)
deriving DecidableEq

/-- The body of the loop of `checkSchedulesAtLocked`, up to its write. -/
def examine (sched : Record) (now : Reading) (w : World) : Verdict :=
  if !sched.enabled then .pass
  else if !shouldRun sched now.weekday now.format now.instant then .pass
  else if !safeToStart w.status then .pass
  else
    match w.soil with
    | some reason => .skip reason
    | none =>
      if sched.areaID = 0 then .started none w.start
      else
        match resolveAreaIndex sched.areaID w.areas with
        | .error reason => .skip reason
        | .ok index => .started (some index) w.start

/-- START was sent. -/
def Verdict.Sends : Verdict → Prop
  | .started _ _ => True
  | _ => False

instance (v : Verdict) : Decidable v.Sends := by
  unfold Verdict.Sends
  split <;> infer_instance

/-- What a verdict writes to the record. -/
inductive Note
  | ran (now : Int)
  | skipped (reason : String) (now : Int)
deriving DecidableEq

/-- A START that was not accepted is no run. -/
def Verdict.note (now : Reading) : Verdict → Option Note
  | .pass => none
  | .skip reason => some (.skipped reason now.instant)
  | .started _ answer => if answer = some true then some (.ran now.instant) else none

def Note.write : Note → Record → Record
  | .ran now, current => { current with lastRun := some now }
  | .skipped reason now, current =>
    { current with lastSkipReason := reason, lastSkippedAt := some now }

/-- A pass that is not disturbed does this with one key. -/
def checkKey (now : Reading) (w : World) (store : Store) (key : String) : Store :=
  match store.lookup key with
  | none => store
  | some sched =>
    match (examine sched now w).note now with
    | none => store
    | some note => updateRunMetadata store sched.id note.write

/-- `checkSchedulesAt`, with the world each record meets. -/
def checkSchedulesAt (now : Reading) (w : String → World) (store : Store) : Store :=
  store.keys.foldl (fun store key => checkKey now (w key) store key) store

end

/-!
## Users and the scheduler at one store

The critical sections of the HTTP handlers, of the MQTT bridge and of a scheduler pass, in
any order. The pass reads a record in one step and writes what came of it in a later one, so
users may edit or delete the record in between.

A log keeps what was accepted, newest first. `lastWrite` and `metadata` read from it what a
record should hold, **each from the writes of its own writer**, and the store agrees with
both.
-/

open Clock (Reading)

/-- The fields that users write. -/
structure Editable where
  areaID : UInt32
  areaName : String
  time : String
  daysOfWeek : List Int
  enabled : Bool
deriving DecidableEq

/-- The fields that users do not edit. -/
structure Meta where
  createdAt : Int
  lastRun : Option Int
  lastSkipReason : String
  lastSkippedAt : Option Int
deriving DecidableEq

namespace Record

def editable (s : Record) : Editable :=
  { areaID := s.areaID, areaName := s.areaName, time := s.time, daysOfWeek := s.daysOfWeek,
    enabled := s.enabled }

def metadata (s : Record) : Meta :=
  { createdAt := s.createdAt, lastRun := s.lastRun, lastSkipReason := s.lastSkipReason,
    lastSkippedAt := s.lastSkippedAt }

end Record

/-- What a user asks of a stored record: all its fields, and which of the area were sent. -/
structure Edit where
  fields : Editable
  sentAreaID : Bool
  sentAreaName : Bool
deriving DecidableEq

/-- An area that was not sent is unchanged, and so is the name of an area that is. -/
def Edit.apply (edit : Edit) (e : Editable) : Editable :=
  if !edit.sentAreaID then { edit.fields with areaID := e.areaID, areaName := e.areaName }
  else if !edit.sentAreaName && edit.fields.areaID == e.areaID then
    { edit.fields with areaName := e.areaName }
  else edit.fields

def Note.apply : Note → Meta → Meta
  | .ran now, m => { m with lastRun := some now }
  | .skipped reason now, m => { m with lastSkipReason := reason, lastSkippedAt := some now }

/-- What was accepted. -/
inductive Mark
  | created (id : String) (e : Editable) (m : Meta)
  | edited (id : String) (edit : Edit)
  | deleted (id : String)
  | noted (id : String) (note : Note)
deriving DecidableEq

/-- What the last accepted user write to `id` says, unless `id` was deleted after it. -/
def lastWrite (id : String) : List Mark → Option Editable
  | [] => none
  | .created id' e _ :: past => if id' = id then some e else lastWrite id past
  | .edited id' edit :: past =>
    if id' = id then (lastWrite id past).map edit.apply else lastWrite id past
  | .deleted id' :: past => if id' = id then none else lastWrite id past
  | .noted _ _ :: past => lastWrite id past

/-- What `id` was created with, and what the scheduler noted since. -/
def metadata (id : String) : List Mark → Option Meta
  | [] => none
  | .created id' _ m :: past => if id' = id then some m else metadata id past
  | .edited _ _ :: past => metadata id past
  | .deleted id' :: past => if id' = id then none else metadata id past
  | .noted id' note :: past =>
    if id' = id then (metadata id past).map note.apply else metadata id past

/-! ## The system -/

structure System where
  store : Store
  log : List Mark
  /-- What the pass will write, and to which record. -/
  pending : Option (String × Note)

inductive Event
  | create (body : Record) (nano now : Int)
  | update (id : String) (body : Record)
  /-- `DELETE /schedules/:id`. -/
  | delete (id : String)
  | set (payload : SetPayload) (retained : Bool) (nano now : Int)
  | mqttDelete (id : String) (retained : Bool)
  /-- A pass reads the record of a key, and makes its calls. -/
  | examine (key : String) (now : Reading) (w : World)
  /-- The pass writes what came of it. -/
  | record

namespace System

def init : System := { store := ∅, log := [], pending := none }

/-- A write that is accepted is logged, and one that is refused changes nothing. -/
def accept (σ : System) (mark : Mark) (r : Except SaveError Store) :
    System × Except SaveError Unit :=
  match r with
  | .error e => (σ, .error e)
  | .ok store => ({ σ with store := store, log := mark :: σ.log }, .ok ())

end System

/-- The fields that a request asks for, once they are tidied. -/
def asked (body : Record) : Editable :=
  match validated body with
  | .ok s => s.editable
  | .error _ => body.editable

def createdMark (body : Record) (nano now : Int) : Mark :=
  .created (toString nano) (asked body) { body.metadata with createdAt := now }

/-- A `schedules/set` of an id that is stored is an edit, and creates a record otherwise. -/
def setMark (store : Store) (payload : SetPayload) (nano now : Int) : Mark :=
  match store.lookup payload.sched.id with
  | some _ => .edited payload.sched.id
      { fields := asked payload.sched, sentAreaID := payload.sentAreaID,
        sentAreaName := payload.sentAreaName }
  | none => createdMark payload.sched nano now

namespace System

def step (σ : System) : Event → System × Except SaveError Unit
  | .create body nano now =>
    σ.accept (createdMark body nano now) (createSchedule σ.store body nano now)
  | .update id body =>
    σ.accept (.edited id { fields := asked body, sentAreaID := true, sentAreaName := true })
      (updateSchedule σ.store id body)
  | .delete id => σ.accept (.deleted id) (.ok (deleteScheduleRecord σ.store id))
  | .set payload retained nano now =>
    σ.accept (setMark σ.store payload nano now) (handleSet σ.store payload retained nano now)
  | .mqttDelete id retained => σ.accept (.deleted id) (handleDelete σ.store id retained)
  | .examine key now w =>
    match σ.pending, σ.store.lookup key with
    | none, some sched =>
      ({ σ with pending := ((examine sched now w).note now).map fun note => (sched.id, note) },
        .ok ())
    | _, _ => (σ, .ok ())
  | .record =>
    match σ.pending with
    | none => (σ, .ok ())
    | some (id, note) =>
      ({ store := updateRunMetadata σ.store id note.write
         log := .noted id note :: σ.log
         pending := none }, .ok ())

def run (σ : System) (events : List Event) : System := events.foldl (fun σ e => (σ.step e).1) σ

end System

/-! ## Notes -/

namespace Note

variable (note : Note) (s : Record)

@[simp] theorem write_id : (note.write s).id = s.id := by cases note <;> rfl

@[simp] theorem write_enabled : (note.write s).enabled = s.enabled := by cases note <;> rfl

theorem write_editable : (note.write s).editable = s.editable := by cases note <;> rfl

theorem write_metadata : (note.write s).metadata = note.apply s.metadata := by cases note <;> rfl

end Note

variable {s : Record}

theorem Valid.write (h : Valid s) (note : Note) : Valid (note.write s) := by
  cases note with
  | ran now => exact ⟨h.time, h.days, h.inWeek⟩
  | skipped reason now => exact ⟨h.time, h.days, h.inWeek⟩

variable {t : Record}

theorem Apart.write (h : Apart s t) (note : Note) : Apart (note.write s) t := by
  cases note with
  | ran now => exact h
  | skipped reason now => exact h

/-! ## The invariant -/

/-- The record is what its two writers wrote. -/
def Holds (log : List Mark) (id : String) (s : Option Record) : Prop :=
  s.map Record.editable = lastWrite id log ∧ s.map Record.metadata = metadata id log

structure Kept (σ : System) : Prop where
  id : ∀ id s, σ.store.lookup id = some s → s.id = id
  valid : ∀ id s, σ.store.lookup id = some s → Valid s
  apart : ∀ id id' s s', σ.store.lookup id = some s → σ.store.lookup id' = some s' → id ≠ id' →
    s.enabled = true → s'.enabled = true → Apart s s'
  holds : ∀ id, Holds σ.log id (σ.store.lookup id)

namespace Kept

variable {σ : System}

theorem init : Kept System.init where
  id _ _ h := by simp [System.init] at h
  valid _ _ h := by simp [System.init] at h
  apart _ _ _ _ h := by simp [System.init] at h
  holds id := by simp [Holds, System.init, lastWrite, metadata]

variable {store : Store}

theorem of_insert {key id : String} (h : (store.insert key s).lookup id = some t) :
    (id = key ∧ t = s) ∨ (id ≠ key ∧ store.lookup id = some t) := by
  by_cases hid : id = key
  · subst hid
    rw [AList.lookup_insert] at h
    cases h
    exact .inl ⟨rfl, rfl⟩
  · rw [AList.lookup_insert_ne hid] at h
    exact .inr ⟨hid, h⟩

theorem of_erase {key id : String} (h : (store.erase key).lookup id = some t) :
    id ≠ key ∧ store.lookup id = some t := by
  by_cases hid : id = key
  · subst hid
    rw [AList.lookup_erase] at h
    cases h
  · rw [AList.lookup_erase_ne hid] at h
    exact ⟨hid, h⟩

/-- A record is stored under its id, apart from the others, with what the log says of it. -/
theorem insert (h : Kept σ) {s : Record} (hvalid : Valid s)
    (hapart : ∀ id other, σ.store.lookup id = some other → other.id ≠ s.id → s.enabled = true →
      other.enabled = true → Apart s other) {mark : Mark}
    (hholds : Holds (mark :: σ.log) s.id (some s))
    (hothers : ∀ id, id ≠ s.id → lastWrite id (mark :: σ.log) = lastWrite id σ.log ∧
      metadata id (mark :: σ.log) = metadata id σ.log) (pending : Option (String × Note)) :
    Kept { store := σ.store.insert s.id s, log := mark :: σ.log, pending := pending } where
  id id t ht := by
    rcases of_insert ht with ⟨rfl, rfl⟩ | ⟨_, ht⟩
    · rfl
    · exact h.id id t ht
  valid id t ht := by
    rcases of_insert ht with ⟨rfl, rfl⟩ | ⟨_, ht⟩
    · exact hvalid
    · exact h.valid id t ht
  apart id id' t t' ht ht' hne hen hen' := by
    rcases of_insert ht with ⟨rfl, rfl⟩ | ⟨_, hσ⟩
    · rcases of_insert ht' with ⟨rfl, _⟩ | ⟨hid', ht'⟩
      · exact absurd rfl hne
      · exact hapart id' t' ht' (by rw [h.id id' t' ht']; exact hid') hen hen'
    · rcases of_insert ht' with ⟨rfl, rfl⟩ | ⟨_, ht'⟩
      · exact (hapart id t hσ (by rw [h.id id t hσ]; exact hne) hen' hen).symm
      · exact h.apart id id' t t' hσ ht' hne hen hen'
  holds id := by
    by_cases hid : id = s.id
    · subst hid
      rw [AList.lookup_insert]
      exact hholds
    · have hlookup : (σ.store.insert s.id s).lookup id = σ.store.lookup id :=
        AList.lookup_insert_ne hid
      rw [hlookup, Holds, (hothers id hid).1, (hothers id hid).2]
      exact h.holds id

/-- A record is taken out. -/
theorem erase (h : Kept σ) (id : String) :
    Kept { σ with store := σ.store.erase id, log := .deleted id :: σ.log } where
  id id' t ht := h.id id' t (of_erase ht).2
  valid id' t ht := h.valid id' t (of_erase ht).2
  apart id₁ id₂ t t' ht ht' := h.apart id₁ id₂ t t' (of_erase ht).2 (of_erase ht').2
  holds id' := by
    by_cases hid : id' = id
    · subst hid
      rw [AList.lookup_erase]
      simp [Holds, lastWrite, metadata]
    · have hlookup : (σ.store.erase id).lookup id' = σ.store.lookup id' :=
        AList.lookup_erase_ne hid
      have hid' : id ≠ id' := Ne.symm hid
      have hbefore := h.holds id'
      rw [hlookup]
      simpa [Holds, lastWrite, metadata, hid'] using hbefore

/-- The pass takes note of what it will write. -/
theorem pend (h : Kept σ) (pending : Option (String × Note)) :
    Kept { σ with pending := pending } :=
  ⟨h.id, h.valid, h.apart, h.holds⟩

/-! ### The writes -/

theorem asked_eq {body : Record} (h : validated body = .ok s) : asked body = s.editable := by
  rw [asked, h]

/-- A new record, under any id. -/
theorem created (h : Kept σ) {body : Record} (hbody : validated body = .ok s) {nano now : Int}
    (hsave : saveScheduleChecked σ.store { s with id := toString nano, createdAt := now } = .ok store)
    : Kept { σ with store := store, log := createdMark body nano now :: σ.log } := by
  obtain ⟨rfl, hapart⟩ := saveScheduleChecked_ok hsave
  obtain ⟨hvalid, areaName, rfl⟩ := validated_ok hbody
  refine @insert σ h { body with areaName := areaName, id := toString nano, createdAt := now }
    ⟨hvalid.time, hvalid.days, hvalid.inWeek⟩ hapart _ ?_ (fun id hid => ?_) _
  · rw [Holds, createdMark, lastWrite, metadata, if_pos rfl, if_pos rfl, asked_eq hbody]
    exact ⟨rfl, rfl⟩
  · rw [createdMark, lastWrite, metadata, if_neg (Ne.symm hid), if_neg (Ne.symm hid)]
    exact ⟨rfl, rfl⟩

/-- A record that takes the place of a stored one, with its metadata. -/
theorem edited (h : Kept σ) {current s : Record} (hcurrent : σ.store.lookup s.id = some current)
    (hvalid : Valid s) {store : Store}
    (hsave : saveScheduleChecked σ.store (current.keepMetadata s) = .ok store) {edit : Edit}
    (hedit : s.editable = edit.apply current.editable) :
    Kept { σ with store := store, log := .edited s.id edit :: σ.log } := by
  obtain ⟨rfl, hapart⟩ := saveScheduleChecked_ok hsave
  have hbefore := h.holds s.id
  rw [hcurrent] at hbefore
  obtain ⟨hfields, hmeta⟩ := hbefore
  refine @insert σ h (current.keepMetadata s) ⟨hvalid.time, hvalid.days, hvalid.inWeek⟩ hapart _ ?_
    (fun id hid => ?_) _
  · show _ = lastWrite s.id _ ∧ _ = metadata s.id _
    rw [lastWrite, metadata, if_pos rfl, ← hfields, ← hmeta]
    exact ⟨congrArg some hedit, rfl⟩
  · have hid : s.id ≠ id := Ne.symm hid
    rw [lastWrite, metadata, if_neg hid]
    exact ⟨rfl, rfl⟩

/-- What the scheduler notes of a record leaves the rest of it. -/
theorem noted (h : Kept σ) (id : String) (note : Note) :
    Kept { store := updateRunMetadata σ.store id note.write, log := .noted id note :: σ.log,
           pending := none } := by
  unfold updateRunMetadata
  cases hstored : σ.store.lookup id with
  | none =>
    have hbefore := h.holds id
    rw [hstored] at hbefore
    refine ⟨h.id, h.valid, h.apart, fun id' => ?_⟩
    by_cases hid : id = id'
    · subst hid
      show Holds _ id (σ.store.lookup id)
      rw [hstored, Holds, lastWrite, metadata, if_pos rfl, ← hbefore.2]
      exact ⟨hbefore.1, rfl⟩
    · show Holds _ id' (σ.store.lookup id')
      rw [Holds, lastWrite, metadata, if_neg hid]
      exact h.holds id'
  | some current =>
    have hid : current.id = id := h.id id current hstored
    subst hid
    have hvalid := h.valid _ current hstored
    have hbefore := h.holds current.id
    rw [hstored] at hbefore
    show Kept { σ with
      store := σ.store.insert current.id (note.write current)
      log := .noted current.id note :: σ.log, pending := none }
    rw [← note.write_id current]
    refine h.insert (hvalid.write note) (fun id other hother hid henabled hother' => ?_) ?_
      (fun id hid => ?_) none
    · rw [note.write_id] at hid
      rw [note.write_enabled] at henabled
      have hkey : current.id ≠ id := by
        rintro rfl
        exact hid (by rw [h.id _ other hother])
      exact (h.apart current.id id current other hstored hother hkey henabled hother').write note
    · rw [Holds, lastWrite, metadata, if_pos rfl, note.write_id, ← hbefore.1, ← hbefore.2]
      exact ⟨congrArg some (note.write_editable current),
        congrArg some (note.write_metadata current)⟩
    · rw [lastWrite, metadata, if_neg (Ne.symm hid)]
      exact ⟨rfl, rfl⟩

/-! ### The steps -/

theorem accept (h : Kept σ) {mark : Mark} {r : Except SaveError Store}
    (hr : ∀ store, r = .ok store → Kept { σ with store := store, log := mark :: σ.log }) :
    Kept (σ.accept mark r).1 := by
  unfold System.accept
  cases r with
  | error e => exact h
  | ok store => exact hr store rfl

/-- An area that is carried over is the one the log says. -/
theorem mergeArea_editable {existing : Record} (sentAreaID sentAreaName : Bool) :
    (SetPayload.mergeArea sentAreaID sentAreaName s existing).editable =
      (Edit.mk s.editable sentAreaID sentAreaName).apply existing.editable := by
  cases sentAreaID with
  | false => rfl
  | true =>
    cases sentAreaName with
    | true => rfl
    | false =>
      by_cases harea : s.areaID = existing.areaID
      · simp [SetPayload.mergeArea, Edit.apply, Record.editable, harea]
      · simp [SetPayload.mergeArea, Edit.apply, Record.editable, harea]

theorem mergeArea_valid {s existing : Record} (h : Valid s) (sentAreaID sentAreaName : Bool) :
    Valid (SetPayload.mergeArea sentAreaID sentAreaName s existing) ∧
      (SetPayload.mergeArea sentAreaID sentAreaName s existing).id = s.id := by
  unfold SetPayload.mergeArea
  split
  · exact ⟨⟨h.time, h.days, h.inWeek⟩, rfl⟩
  · split
    · exact ⟨⟨h.time, h.days, h.inWeek⟩, rfl⟩
    · exact ⟨h, rfl⟩

theorem set (h : Kept σ) {payload : SetPayload} {retained : Bool} {nano now : Int}
    (hset : handleSet σ.store payload retained nano now = .ok store) :
    Kept { σ with store := store, log := setMark σ.store payload nano now :: σ.log } := by
  obtain ⟨s, hbody, hsaved⟩ := handleSet_ok hset
  obtain ⟨hvalid, areaName, hs⟩ := validated_ok hbody
  have hid : payload.sched.id = s.id := by rw [hs]
  unfold setMark
  rw [hid]
  rcases hsaved with ⟨existing, hexisting, hsave⟩ | ⟨hnone, hsave⟩
  · rw [hexisting]
    have hvalid' : Valid s := by
      rw [hs]
      exact ⟨hvalid.time, hvalid.days, hvalid.inWeek⟩
    obtain ⟨hmerged, hmid⟩ := @mergeArea_valid s existing hvalid' payload.sentAreaID
      payload.sentAreaName
    dsimp only
    rw [← hmid]
    refine h.edited (by rw [hmid]; exact hexisting) hmerged hsave ?_
    rw [asked_eq hbody]
    exact mergeArea_editable payload.sentAreaID payload.sentAreaName
  · rw [hnone]
    exact h.created hbody hsave

theorem step (h : Kept σ) (e : Event) : Kept (σ.step e).1 := by
  cases e with
  | create body nano now =>
    refine h.accept fun store hstore => ?_
    obtain ⟨s, hbody, hsave⟩ := createSchedule_ok hstore
    exact h.created hbody hsave
  | update id body =>
    refine h.accept fun store hstore => ?_
    obtain ⟨s, current, hbody, hcurrent, hsave⟩ := updateSchedule_ok hstore
    obtain ⟨hvalid, areaName, rfl⟩ := validated_ok hbody
    refine @edited σ h current { body with areaName := areaName, id := id } hcurrent
      ⟨hvalid.time, hvalid.days, hvalid.inWeek⟩ store hsave _ ?_
    rw [asked_eq hbody]
    rfl
  | delete id =>
    refine h.accept fun store hstore => ?_
    cases hstore
    exact h.erase id
  | set payload retained nano now => exact h.accept fun store hstore => h.set hstore
  | mqttDelete id retained =>
    refine h.accept fun store hstore => ?_
    unfold handleDelete at hstore
    split at hstore
    · cases hstore
    split at hstore
    · cases hstore
    · cases hstore
      exact h.erase id
  | examine key now w =>
    unfold System.step
    dsimp only
    split
    · exact h.pend _
    · exact h
  | record =>
    unfold System.step
    dsimp only
    split
    · exact h
    · rename_i id note _
      exact h.noted id note

theorem run (h : Kept σ) (events : List Event) : Kept (σ.run events) := by
  induction events generalizing σ with
  | nil => exact h
  | cons e events ih => exact ih (h.step e)

end Kept

/-! ## Writers that do not disturb each other -/

/-- A deletion with no creation of the same id after it. -/
theorem lastWrite_deleted {id : String} {later past : List Mark}
    (h : ∀ e m, Mark.created id e m ∉ later) :
    lastWrite id (later ++ .deleted id :: past) = none := by
  induction later with
  | nil => simp [lastWrite]
  | cons mark later ih =>
    have hlater : ∀ e m, Mark.created id e m ∉ later := fun e m hm => h e m (by simp [hm])
    cases mark with
    | created id' e m =>
      have hid : id' ≠ id := by
        rintro rfl
        exact h e m (by simp)
      rw [List.cons_append, lastWrite, if_neg hid]
      exact ih hlater
    | edited id' edit =>
      rw [List.cons_append, lastWrite, ih hlater]
      split
      · rfl
      · rfl
    | deleted id' =>
      rw [List.cons_append, lastWrite, ih hlater]
      split
      · rfl
      · rfl
    | noted id' note => exact ih hlater

/-- Whatever the order of the writers: enabled schedules stay apart, a deleted one stays gone,
    and every record holds what its users last wrote and what the scheduler noted. -/
theorem schedule_writers (events : List Event) :
    let σ := System.init.run events
    (∀ id id' s s', σ.store.lookup id = some s → σ.store.lookup id' = some s' → id ≠ id' →
        s.enabled = true → s'.enabled = true → Apart s s') ∧
      (∀ id s, σ.store.lookup id = some s → s.id = id ∧ ∀ d ∈ s.daysOfWeek, ∃ m, Starts s m) ∧
      (∀ id later past, σ.log = later ++ .deleted id :: past →
        (∀ e m, Mark.created id e m ∉ later) → σ.store.lookup id = none) ∧
      (∀ id, (σ.store.lookup id).map Record.editable = lastWrite id σ.log ∧
        (σ.store.lookup id).map Record.metadata = metadata id σ.log) ∧
      ∀ e error, (σ.step e).2 = .error error → (σ.step e).1 = σ := by
  intro σ
  have hkept : Kept σ := Kept.init.run events
  refine ⟨hkept.apart, fun id s hs => ⟨hkept.id id s hs, fun d hd => (hkept.valid id s hs).start hd⟩,
    fun id later past hlog hlater => ?_, hkept.holds, fun e error herror => ?_⟩
  · have hfields := (hkept.holds id).1
    rw [hlog, lastWrite_deleted hlater] at hfields
    exact Option.map_eq_none_iff.1 hfields
  · have haccept (mark : Mark) (r : Except SaveError Store)
        (hr : (σ.accept mark r).2 = .error error) : (σ.accept mark r).1 = σ := by
      unfold System.accept at hr ⊢
      cases r with
      | error e => rfl
      | ok store => cases hr
    cases e with
    | create body nano now => exact haccept _ _ herror
    | update id body => exact haccept _ _ herror
    | delete id => exact haccept _ _ herror
    | set payload retained nano now => exact haccept _ _ herror
    | mqttDelete id retained => exact haccept _ _ herror
    | examine key now w =>
      unfold System.step at herror
      dsimp only at herror
      split at herror
      · cases herror
      · cases herror
    | record =>
      unfold System.step at herror
      dsimp only at herror
      split at herror
      · cases herror
      · cases herror

end Schedule
end Mowgli
