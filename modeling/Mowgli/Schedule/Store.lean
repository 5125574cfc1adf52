import Mathlib.Data.List.AList
import Mowgli.Lib.Clock

/-!
# Store — mowing schedules, and the writes of them

`Schedule` and the checks of `schedules.go`: `validateSchedule`, and the rule that two
enabled schedules start an hour apart, **measured around the week**.

The store is the database under its `schedule:` prefix, a finite map from ids to records.
-/

namespace Mowgli
namespace Schedule

structure Record where
  id : String
  /-- The stable id of a map area; 0 is every area. -/
  areaID : UInt32
  areaName : String
  time : String
  /-- 0 is a Sunday. -/
  daysOfWeek : List Int
  enabled : Bool
  createdAt : Int
  lastRun : Option Int
  lastSkipReason : String
  lastSkippedAt : Option Int
deriving DecidableEq

def minScheduleSpacingMinutes : Int := 60
def minutesPerWeek : Int := 7 * 24 * 60
def maxAreaNameLength : Nat := 200

/-- `unicode.IsSpace`. -/
def isSpace (c : Char) : Bool :=
  let n := c.toNat
  (0x09 ≤ n && n ≤ 0x0d) || n == 0x20 || n == 0x85 || n == 0xa0 || n == 0x1680 ||
    (0x2000 ≤ n && n ≤ 0x200a) || n == 0x2028 || n == 0x2029 || n == 0x202f || n == 0x205f ||
    n == 0x3000

/-- `strings.TrimSpace`. -/
def trimSpace (s : String) : String :=
  String.ofList (((s.toList.dropWhile isSpace).reverse.dropWhile isSpace).reverse)

/-- `validateSchedule`, which also tidies the name of the area. -/
def validateSchedule (s : Record) : Except String Record :=
  let areaName := trimSpace s.areaName
  if s.time = "" then .error "time is required (HH:mm format)"
  else if (Clock.parse s.time).isNone then .error "invalid time format, expected HH:mm"
  else if s.daysOfWeek.isEmpty then .error "at least one day of week is required"
  else if s.daysOfWeek.any (fun d => decide (d < 0) || decide (6 < d)) then
    .error "day of week must be 0-6 (Sunday-Saturday)"
  else if maxAreaNameLength < areaName.utf8ByteSize then
    .error "areaName is too long (max 200 characters)"
  else .ok { s with areaName := if s.areaID = 0 then "" else areaName }

/-- The minute since Sunday 00:00 of a weekday and a time of day. -/
def minuteOfWeek (day : Int) (hhmm : String) : Option Int :=
  (Clock.parse hhmm).map fun t => day * 24 * 60 + t.1 * 60 + t.2

/-- The way from one minute of the week to another, the shorter one around. -/
def weekDistance (ma mb : Int) : Int :=
  let diff := if ma - mb < 0 then -(ma - mb) else ma - mb
  if minutesPerWeek / 2 < diff then minutesPerWeek - diff else diff

def schedulesOverlap (a b : Record) : Bool :=
  a.daysOfWeek.any fun da =>
    match minuteOfWeek da a.time with
    | none => false
    | some ma =>
      b.daysOfWeek.any fun db =>
        match minuteOfWeek db b.time with
        | none => false
        | some mb => decide (weekDistance ma mb < minScheduleSpacingMinutes)

/-- The first other enabled schedule that the candidate overlaps. -/
def findOverlappingSchedule (candidate : Record) (existing : List Record) : Option Record :=
  if !candidate.enabled then none
  else
    existing.find? fun other =>
      other.id != candidate.id && other.enabled && schedulesOverlap candidate other

/-! ## What is acceptable -/

/-- The starts of a week. -/
def Starts (s : Record) (m : Int) : Prop := ∃ d ∈ s.daysOfWeek, minuteOfWeek d s.time = some m

/-- The record says when it starts. -/
structure Valid (s : Record) : Prop where
  time : ∃ h m, Clock.parse s.time = some (h, m)
  days : s.daysOfWeek ≠ []
  inWeek : ∀ d ∈ s.daysOfWeek, 0 ≤ d ∧ d ≤ 6

/-- All starts of the one are an hour away from all starts of the other, in any week. -/
def Apart (a b : Record) : Prop :=
  ∀ ma mb, Starts a ma → Starts b mb → ∀ week : Int,
    minScheduleSpacingMinutes ≤ (ma - mb + week * minutesPerWeek).natAbs

variable {s : Record}

theorem validateSchedule_ok {s' : Record} (h : validateSchedule s = .ok s') :
    Valid s ∧ ∃ areaName, s' = { s with areaName := areaName } := by
  unfold validateSchedule at h
  dsimp only at h
  split at h
  · cases h
  split at h
  · cases h
  rename_i hparse
  split at h
  · cases h
  rename_i hdays
  split at h
  · cases h
  rename_i hweek
  split at h
  · cases h
  cases h
  refine ⟨⟨?_, ?_, fun d hd => ?_⟩, _, rfl⟩
  · cases hp : Clock.parse s.time with
    | none => simp [hp] at hparse
    | some t => exact ⟨t.1, t.2, rfl⟩
  · simpa using hdays
  · simp only [Bool.not_eq_true, List.any_eq_false, Bool.or_eq_true, decide_eq_true_eq,
      not_or] at hweek
    have hrange := hweek d hd
    omega

/-- Each of its days has a start. -/
theorem Valid.start {s : Record} (h : Valid s) {d : Int} (hd : d ∈ s.daysOfWeek) : ∃ m, Starts s m := by
  obtain ⟨hour, minute, hparse⟩ := h.time
  exact ⟨_, d, hd, by rw [minuteOfWeek, hparse]; rfl⟩

/-- The shorter way around is the shortest in any week. -/
theorem weekDistance_le (ma mb week : Int) :
    weekDistance ma mb ≤ (ma - mb + week * minutesPerWeek).natAbs := by
  have hsize : minutesPerWeek = 10080 := rfl
  unfold weekDistance
  rw [hsize]
  dsimp only
  split
  · split <;> omega
  · split <;> omega

theorem Apart.of_overlap {a b : Record} (h : schedulesOverlap a b = false) : Apart a b := by
  rintro ma mb ⟨da, hda, hma⟩ ⟨db, hdb, hmb⟩ week
  refine Int.le_trans ?_ (weekDistance_le ma mb week)
  unfold schedulesOverlap at h
  have hother := List.any_eq_false.1 h da hda
  rw [hma] at hother
  dsimp only at hother
  rw [Bool.not_eq_true] at hother
  have hdistance := List.any_eq_false.1 hother db hdb
  rw [hmb] at hdistance
  simpa using hdistance

theorem Apart.symm {a b : Record} (h : Apart a b) : Apart b a := by
  intro mb ma hmb hma week
  have hback := h ma mb hma hmb (-week)
  rw [Int.neg_mul] at hback
  omega

/-!
## The writes of schedules

Each write of `schedules.go`, `schedule_mqtt.go` and `scheduler.go` is one critical section
under `ScheduleWriteMu`, and one function here: it reads what it needs and stores at most one
record, or refuses. **What a user writes and what the scheduler writes are different fields**
of one record, so each of them takes the other's from the record that is stored now.
-/

abbrev Store := AList fun _ : String => Record

inductive SaveError
  | invalid (text : String)
  | conflict (other : Record)
  | notFound
  /-- A retained message is the broker repeating an old intent. -/
  | retained
  | noID

def getAllSchedules (store : Store) : List Record := store.entries.map fun e => e.2

/-- `saveScheduleCheckedLocked`. -/
def saveScheduleChecked (store : Store) (s : Record) : Except SaveError Store :=
  match findOverlappingSchedule s (getAllSchedules store) with
  | some other => .error (.conflict other)
  | none => .ok (store.insert s.id s)

/-- The fields that only the scheduler writes are those of `current`. -/
def Record.keepMetadata (current s : Record) : Record :=
  { s with
    createdAt := current.createdAt
    lastRun := current.lastRun
    lastSkipReason := current.lastSkipReason
    lastSkippedAt := current.lastSkippedAt }

def updateScheduleChecked (store : Store) (s : Record) : Except SaveError Store :=
  match store.lookup s.id with
  | none => .error .notFound
  | some current => saveScheduleChecked store (current.keepMetadata s)

def deleteScheduleRecord (store : Store) (id : String) : Store := store.erase id

/-- What is validated, or the text of why it is not. -/
def validated (s : Record) : Except SaveError Record :=
  match validateSchedule s with
  | .error text => .error (.invalid text)
  | .ok s => .ok s

/-- `POST /schedules`, at `nano` of the clock. -/
def createSchedule (store : Store) (body : Record) (nano now : Int) : Except SaveError Store := do
  let s ← validated body
  saveScheduleChecked store { s with id := toString nano, createdAt := now }

/-- `PUT /schedules/:id`. -/
def updateSchedule (store : Store) (id : String) (body : Record) : Except SaveError Store := do
  let s ← validated body
  updateScheduleChecked store { s with id := id }

/-- A `schedules/set` message: the record its keys give, and which area keys it has. -/
structure SetPayload where
  sched : Record
  sentAreaID : Bool
  sentAreaName : Bool

/-- An area that was not sent is the one that is stored, and its name goes with it. -/
def SetPayload.mergeArea (sentAreaID sentAreaName : Bool) (sched existing : Record) : Record :=
  if !sentAreaID then { sched with areaID := existing.areaID, areaName := existing.areaName }
  else if !sentAreaName && sched.areaID == existing.areaID then
    { sched with areaName := existing.areaName }
  else sched

def handleSet (store : Store) (payload : SetPayload) (retained : Bool) (nano now : Int) :
    Except SaveError Store :=
  if retained then .error .retained
  else do
    let sched ← validated payload.sched
    match store.lookup sched.id with
    | some existing =>
      saveScheduleChecked store (existing.keepMetadata
        (SetPayload.mergeArea payload.sentAreaID payload.sentAreaName sched existing))
    | none => saveScheduleChecked store { sched with id := toString nano, createdAt := now }

def handleDelete (store : Store) (id : String) (retained : Bool) : Except SaveError Store :=
  if retained then .error .retained
  else if id = "" then .error .noID
  else .ok (deleteScheduleRecord store id)

/-- `updateRunMetadata`. A record that is gone stays gone. -/
def updateRunMetadata (store : Store) (id : String) (mutate : Record → Record) : Store :=
  match store.lookup id with
  | none => store
  | some current => store.insert id (mutate current)

/-! ## What a save says -/

theorem validated_ok {s' : Record} (h : validated s = .ok s') :
    Valid s ∧ ∃ areaName, s' = { s with areaName := areaName } := by
  unfold validated at h
  split at h
  · cases h
  · rename_i hvalid
    cases h
    exact validateSchedule_ok hvalid

variable {store store' : Store}

theorem mem_getAllSchedules {id : String} (h : store.lookup id = some s) :
    s ∈ getAllSchedules store :=
  List.mem_map.2 ⟨⟨id, s⟩, AList.mem_lookup_iff.1 h, rfl⟩

theorem findOverlappingSchedule_none {candidate : Record} {existing : List Record}
    (h : findOverlappingSchedule candidate existing = none) (henabled : candidate.enabled = true)
    {other : Record} (hother : other ∈ existing) (hid : other.id ≠ candidate.id)
    (hother' : other.enabled = true) : schedulesOverlap candidate other = false := by
  unfold findOverlappingSchedule at h
  rw [henabled] at h
  have hnone := List.find?_eq_none.1 h other hother
  simpa [hid, hother'] using hnone

/-- A record that was saved is apart from every other one that is enabled. -/
theorem saveScheduleChecked_ok (h : saveScheduleChecked store s = .ok store') :
    store' = store.insert s.id s ∧ ∀ id other, store.lookup id = some other → other.id ≠ s.id →
      s.enabled = true → other.enabled = true → Apart s other := by
  unfold saveScheduleChecked at h
  split at h
  · cases h
  · rename_i hnone
    cases h
    exact ⟨rfl, fun id other hother hid henabled hother' => .of_overlap
      (findOverlappingSchedule_none hnone henabled (mem_getAllSchedules hother) hid hother')⟩

theorem createSchedule_ok {body : Record} {nano now : Int}
    (h : createSchedule store body nano now = .ok store') :
    ∃ s, validated body = .ok s ∧
      saveScheduleChecked store { s with id := toString nano, createdAt := now } = .ok store' := by
  unfold createSchedule at h
  cases hbody : validated body with
  | error e =>
    rw [hbody] at h
    cases h
  | ok s =>
    rw [hbody] at h
    exact ⟨s, rfl, h⟩

theorem updateSchedule_ok {id : String} {body : Record}
    (h : updateSchedule store id body = .ok store') :
    ∃ s current, validated body = .ok s ∧ store.lookup id = some current ∧
      saveScheduleChecked store (current.keepMetadata { s with id := id }) = .ok store' := by
  unfold updateSchedule at h
  cases hbody : validated body with
  | error e =>
    rw [hbody] at h
    cases h
  | ok s =>
    rw [hbody] at h
    replace h : updateScheduleChecked store { s with id := id } = .ok store' := h
    unfold updateScheduleChecked at h
    split at h
    · cases h
    · rename_i current hcurrent
      exact ⟨s, current, rfl, hcurrent, h⟩

theorem handleSet_ok {payload : SetPayload} {retained : Bool} {nano now : Int}
    (h : handleSet store payload retained nano now = .ok store') :
    ∃ s, validated payload.sched = .ok s ∧
      ((∃ existing, store.lookup s.id = some existing ∧ saveScheduleChecked store
        (existing.keepMetadata (SetPayload.mergeArea payload.sentAreaID payload.sentAreaName s existing))
          = .ok store') ∨
      (store.lookup s.id = none ∧
        saveScheduleChecked store { s with id := toString nano, createdAt := now } = .ok store')) := by
  unfold handleSet at h
  split at h
  · cases h
  cases hbody : validated payload.sched with
  | error e =>
    rw [hbody] at h
    cases h
  | ok s =>
    rw [hbody] at h
    refine ⟨s, rfl, ?_⟩
    dsimp only [bind, Except.bind] at h
    split at h
    · rename_i existing hexisting
      exact .inl ⟨existing, hexisting, h⟩
    · rename_i hnone
      exact .inr ⟨hnone, h⟩

end Schedule
end Mowgli
