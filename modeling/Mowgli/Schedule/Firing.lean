import Mowgli.Schedule.Writers

/-!
# Firing — when a schedule is started

The loop of `scheduler.go`: a pass at every tick, and at every news of the mower while the
minute of the start lasts. Its readings of the clock are **any readings in any order**, and
a pass meets any mower, soil and map.

`Says` is what a schedule says of a reading, after the starts it has had: it is due, and was
not started in the two minutes before. The loop does that where `Meets` holds of the record,
and nowhere else: a time without its leading zero is accepted and never comes, and a last run
that lies ahead of the clock holds a start back.
-/

namespace Mowgli
namespace Schedule

open Clock (Reading)

/-- What a pass over these keys finds of each of them. -/
def verdicts (now : Reading) (w : String → World) : List String → Store → List (String × Verdict)
  | [], _ => []
  | key :: keys, store =>
    ((store.lookup key).map fun sched => (key, examine sched now (w key))).toList ++
      verdicts now w keys (checkKey now (w key) store key)

/-- A pass that the loop is about to make. -/
structure Check where
  /-- News of the mower woke it, and not the ticker. -/
  startup : Bool
  now : Reading
  world : String → World

/-- `checkStartupUpdateAt` is for the calendar minute of the start. -/
def Check.runs (startedAt : Reading) (c : Check) : Bool :=
  !c.startup || decide (startedAt.minutes = c.now.minutes)

/-- START was accepted. -/
def Verdict.isRun (now : Reading) (v : Verdict) : Bool := decide (v.note now = some (.ran now.instant))

/-- The store, and the starts that were accepted, the latest first. -/
structure Loop where
  store : Store
  accepted : List (String × Reading)

namespace Loop

/-- What the pass finds, if it is made. -/
def finds (startedAt : Reading) (σ : Loop) (c : Check) : List (String × Verdict) :=
  if c.runs startedAt then verdicts c.now c.world σ.store.keys σ.store else []

def check (startedAt : Reading) (σ : Loop) (c : Check) : Loop :=
  { store := if c.runs startedAt then checkSchedulesAt c.now c.world σ.store else σ.store
    accepted := (((σ.finds startedAt c).filter fun found => found.2.isRun c.now).map
      fun found => (found.1, c.now)).reverse ++ σ.accepted }

def run (startedAt : Reading) (σ : Loop) (checks : List Check) : Loop :=
  checks.foldl (check startedAt) σ

/-- START was sent for a schedule. -/
def Sends (startedAt : Reading) (σ : Loop) (c : Check) (id : String) : Prop :=
  ∃ v, (id, v) ∈ σ.finds startedAt c ∧ v.Sends

/-- The accepted starts of a schedule. -/
def starts (σ : Loop) (id : String) : List Reading :=
  (σ.accepted.filter fun start => start.1 == id).map fun start => start.2

end Loop

/-! ## What a schedule says -/

/-- The weekday is one of its days, and the time of day is its time. -/
def Due (s : Record) (now : Reading) : Prop :=
  (now.weekday : Int) ∈ s.daysOfWeek ∧
    minuteOfWeek now.weekday s.time = some ((now.weekday : Int) * 1440 + now.minuteOfDay)

/-- Less than two minutes before. -/
def Recent (t : Int) (now : Reading) : Prop :=
  t ≤ now.instant ∧ now.instant - t < 2 * Clock.minute

def Says (s : Record) (started : List Int) (now : Reading) : Prop :=
  Due s now ∧ ∀ t ∈ started, ¬ Recent t now

/-- Two digits for the hour. -/
def Padded (time : String) : Prop := ∀ h m, Clock.parse time = some (h, m) → time = Clock.hhmm h m

/-- A record that is due was started just before, or it writes its time in full and was not
    started later. -/
def Meets (s : Record) (started : List Int) (now : Reading) : Prop :=
  Due s now → (∃ t ∈ started, Recent t now) ∨
    (Padded s.time ∧ ∀ t ∈ started, t ≤ now.instant)

/-- Nothing but the clock keeps the record from starting. -/
def Open (s : Record) (w : World) : Prop :=
  safeToStart w.status = true ∧ w.soil = none ∧
    (s.areaID = 0 ∨ ∃ index, resolveAreaIndex s.areaID w.areas = .ok index)

/-- Every record is stored under its id. -/
def Keyed (store : Store) : Prop := ∀ id s, store.lookup id = some s → s.id = id

/-! ## One record -/

variable {now : Reading} {s : Record} {store : Store}

/-- A written time is the time of the reading that reads the same. -/
theorem due_iff :
    Due s now ↔ (now.weekday : Int) ∈ s.daysOfWeek ∧
      Clock.parse s.time = some (now.minuteOfDay / 60, now.minuteOfDay % 60) := by
  unfold Due minuteOfWeek
  refine and_congr_right fun _ => ?_
  cases hparse : Clock.parse s.time with
  | none => simp
  | some t =>
    obtain ⟨h, m⟩ := t
    obtain ⟨hhour, hminute⟩ := Clock.parse_lt hparse
    have hlt := now.minuteOfDay_lt
    simp only [Option.map_some, Option.some.injEq, Prod.mk.injEq]
    constructor
    · intro heq
      omega
    · rintro ⟨rfl, rfl⟩
      omega

/-- The comparison of texts takes the times that are written in full. -/
theorem format_iff :
    s.time = now.format ↔
      Padded s.time ∧ Clock.parse s.time = some (now.minuteOfDay / 60, now.minuteOfDay % 60) := by
  constructor
  · intro h
    have hparse := now.parse_format
    rw [← h] at hparse
    refine ⟨fun hour minute hread => ?_, hparse⟩
    rw [hparse] at hread
    cases hread
    exact h
  · rintro ⟨hpadded, hparse⟩
    exact hpadded _ _ hparse

theorem shouldRun_iff :
    shouldRun s now.weekday now.format now.instant = true ↔
      Due s now ∧ Padded s.time ∧
        ∀ t, s.lastRun = some t → 2 * Clock.minute ≤ now.instant - t := by
  have hsub (t : Int) : Clock.sub now.instant t < 2 * Clock.minute ↔
      now.instant - t < 2 * Clock.minute := Clock.sub_lt (by decide) (by decide)
  unfold shouldRun
  rw [due_iff]
  by_cases htime : s.time = now.format
  · obtain ⟨hpadded, hparse⟩ := format_iff.1 htime
    by_cases hday : (now.weekday : Int) ∈ s.daysOfWeek
    · cases hlast : s.lastRun with
      | none => simp [hday, hpadded, hparse, ← htime]
      | some t => simp [hday, hpadded, hparse, hsub, ← htime]
    · simp [htime, hday]
  · have hnot : ¬ (Padded s.time ∧
        Clock.parse s.time = some (now.minuteOfDay / 60, now.minuteOfDay % 60)) :=
      fun h => htime (format_iff.2 h)
    simp only [bne_iff_ne, ne_eq, htime, not_false_eq_true, ↓reduceIte, Bool.false_eq_true,
      false_iff]
    rintro ⟨⟨_, hparse⟩, hpadded, _⟩
    exact hnot ⟨hpadded, hparse⟩

theorem examine_sends {w : World} (henabled : s.enabled = true) (hopen : Open s w) :
    (examine s now w).Sends ↔ shouldRun s now.weekday now.format now.instant = true := by
  obtain ⟨hsafe, hsoil, harea⟩ := hopen
  unfold examine
  rw [henabled, hsafe, hsoil]
  cases shouldRun s now.weekday now.format now.instant with
  | false => simp [Verdict.Sends]
  | true =>
    by_cases hall : s.areaID = 0
    · simp [Verdict.Sends, hall]
    · obtain ⟨index, harea⟩ := harea.resolve_left hall
      simp [Verdict.Sends, hall, harea]

/-- A START that is accepted was due by the rule of `shouldRun`. -/
theorem examine_ran {w : World} {t : Int} (h : (examine s now w).note now = some (.ran t)) :
    t = now.instant ∧ shouldRun s now.weekday now.format now.instant = true := by
  unfold examine at h
  split at h
  · cases h
  split at h
  · cases h
  rename_i hrun
  replace hrun : shouldRun s now.weekday now.format now.instant = true := by simpa using hrun
  split at h
  · cases h
  refine ⟨?_, hrun⟩
  have hstarted (area : Option Nat)
      (hnote : (Verdict.started area w.start).note now = some (.ran t)) : t = now.instant := by
    unfold Verdict.note at hnote
    dsimp only at hnote
    split at hnote
    · cases hnote
      rfl
    · cases hnote
  split at h
  · cases h
  · split at h
    · exact hstarted _ h
    · split at h
      · cases h
      · exact hstarted _ h

/-! ## One pass -/

/-- What a pass leaves of a record. -/
def Record.after (s : Record) (now : Reading) (w : World) : Record :=
  match (examine s now w).note now with
  | none => s
  | some note => note.write s

theorem Record.after_id (s : Record) (now : Reading) (w : World) : (s.after now w).id = s.id := by
  unfold Record.after
  split
  · rfl
  · rename_i note _
    exact note.write_id s

theorem updateRunMetadata_some {id : String} (h : store.lookup id = some s)
    (mutate : Record → Record) :
    updateRunMetadata store id mutate = store.insert id (mutate s) := by
  rw [updateRunMetadata, h]

namespace Keyed

theorem checkKey_self (h : Keyed store) (now : Reading) (w : World) (id : String) :
    (checkKey now w store id).lookup id = (store.lookup id).map fun s => s.after now w := by
  unfold checkKey
  cases hs : store.lookup id with
  | none => exact hs
  | some s =>
    have hid := h id s hs
    rw [Option.map_some, Record.after]
    dsimp only
    cases hnote : (examine s now w).note now with
    | none => exact hs
    | some note =>
      dsimp only
      rw [hid, updateRunMetadata_some hs]
      exact AList.lookup_insert store

theorem checkKey_other (h : Keyed store) (now : Reading) (w : World) {key id : String}
    (hkey : key ≠ id) : (checkKey now w store key).lookup id = store.lookup id := by
  unfold checkKey
  cases hs : store.lookup key with
  | none => rfl
  | some s =>
    have hid := h key s hs
    dsimp only
    split
    · rfl
    · rw [hid, updateRunMetadata_some hs, AList.lookup_insert_ne (Ne.symm hkey)]

theorem checkKey (h : Keyed store) (now : Reading) (w : World) (key : String) :
    Keyed (checkKey now w store key) := by
  intro id s hs
  by_cases hkey : key = id
  · subst hkey
    rw [h.checkKey_self] at hs
    obtain ⟨s', hs', rfl⟩ := Option.map_eq_some_iff.1 hs
    rw [s'.after_id]
    exact h key s' hs'
  · rw [h.checkKey_other now w hkey] at hs
    exact h id s hs

/-- A pass comes to a key once, and does nothing else to its record. -/
theorem fold {now : Reading} {w : String → World} (id : String) (keys : List String)
    (hkeys : keys.Nodup) {store : Store} (h : Keyed store) :
    Keyed (keys.foldl (fun store key => Schedule.checkKey now (w key) store key) store) ∧
      (keys.foldl (fun store key => Schedule.checkKey now (w key) store key) store).lookup id =
        if id ∈ keys then (store.lookup id).map fun s => s.after now (w id) else store.lookup id := by
  induction keys generalizing store with
  | nil => exact ⟨h, rfl⟩
  | cons key keys ih =>
    obtain ⟨hkey, hkeys⟩ := List.nodup_cons.1 hkeys
    obtain ⟨hkeyed, hlookup⟩ := ih hkeys (h.checkKey now (w key) key)
    refine ⟨hkeyed, hlookup.trans ?_⟩
    by_cases hid : id = key
    · subst hid
      rw [if_neg hkey, if_pos List.mem_cons_self, h.checkKey_self]
    · rw [h.checkKey_other now (w key) (Ne.symm hid)]
      simp [hid]

theorem pass (h : Keyed store) (now : Reading) (w : String → World) (id : String) :
    Keyed (checkSchedulesAt now w store) ∧ (checkSchedulesAt now w store).lookup id =
      (store.lookup id).map fun s => s.after now (w id) := by
  obtain ⟨hkeyed, hlookup⟩ := @fold now w id store.keys store.keys_nodup store h
  refine ⟨hkeyed, hlookup.trans ?_⟩
  split
  · rfl
  · rename_i hid
    rw [AList.lookup_eq_none.2 hid]
    rfl

/-- What the pass finds of a record is what it is before the pass, and it finds it once. -/
theorem verdict {now : Reading} {w : String → World} (id : String) (keys : List String)
    (hkeys : keys.Nodup) {store : Store} (h : Keyed store) :
    (verdicts now w keys store).filter (fun found => found.1 == id) =
      if id ∈ keys then ((store.lookup id).map fun s => (id, examine s now (w id))).toList
      else [] := by
  induction keys generalizing store with
  | nil => rfl
  | cons key keys ih =>
    obtain ⟨hkey, hkeys⟩ := List.nodup_cons.1 hkeys
    have hrest := ih hkeys (h.checkKey now (w key) key)
    rw [verdicts, List.filter_append, hrest]
    by_cases hid : key = id
    · subst hid
      rw [if_neg hkey, if_pos List.mem_cons_self]
      cases store.lookup key with
      | none => rfl
      | some s => simp
    · rw [h.checkKey_other now (w key) hid]
      cases store.lookup key with
      | none => simp [Ne.symm hid]
      | some s => simp [hid, Ne.symm hid]

end Keyed

/-! ## The loop -/

/-- The starts of a record: those of the loop, and the run it was stored with. -/
def Loop.history (σ : Loop) (id : String) (s : Record) : List Int :=
  (σ.starts id).map Reading.instant ++ s.lastRun.toList

/-- The record of the store is the one of the beginning with its last start, and each start
    is two minutes after the ones before it. -/
structure Followed (id : String) (s : Record) (σ : Loop) : Prop where
  keyed : Keyed σ.store
  stored : ∃ s', σ.store.lookup id = some s' ∧ s'.editable = s.editable ∧
    s'.lastRun = (σ.history id s).head?
  spaced : (σ.history id s).Pairwise fun later earlier => 2 * Clock.minute ≤ later - earlier

theorem Record.after_editable (s : Record) (now : Reading) (w : World) :
    (s.after now w).editable = s.editable := by
  unfold Record.after
  split
  · rfl
  · rename_i note _
    exact note.write_editable s

theorem Record.after_lastRun (s : Record) (now : Reading) (w : World) :
    (s.after now w).lastRun =
      if (examine s now w).isRun now then some now.instant else s.lastRun := by
  unfold Record.after Verdict.isRun
  cases hnote : (examine s now w).note now with
  | none => simp
  | some note =>
    cases note with
    | ran t =>
      obtain ⟨rfl, -⟩ := examine_ran hnote
      simp [Note.write]
    | skipped reason t => simp [Note.write]

/-- What a pass adds to the starts of a record. -/
theorem Loop.starts_check {startedAt : Reading} {σ : Loop} {c : Check} {id : String} {s : Record}
    (hkeyed : Keyed σ.store) (hs : σ.store.lookup id = some s) :
    (σ.check startedAt c).starts id =
      if c.runs startedAt && (examine s c.now (c.world id)).isRun c.now
      then c.now :: σ.starts id else σ.starts id := by
  unfold Loop.starts Loop.check Loop.finds
  cases hruns : c.runs startedAt with
  | false => simp
  | true =>
    have hmem : id ∈ σ.store.keys := AList.lookup_isSome.1 (by rw [hs]; rfl)
    have hfound := @Keyed.verdict c.now c.world id σ.store.keys σ.store.keys_nodup _ hkeyed
    rw [if_pos hmem, hs] at hfound
    have hnew : (((verdicts c.now c.world σ.store.keys σ.store).filter
        fun found => found.2.isRun c.now).map fun found => (found.1, c.now)).filter
          (fun start => start.1 == id) =
        ((((verdicts c.now c.world σ.store.keys σ.store).filter
          (fun found => found.1 == id)).filter fun found => found.2.isRun c.now).map
            fun found => (found.1, c.now)) := by
      rw [List.filter_map, List.filter_filter, List.filter_filter]
      simp [Bool.and_comm]
    dsimp only
    rw [if_pos rfl, List.filter_append, List.filter_reverse, hnew, hfound]
    cases hrun : (examine s c.now (c.world id)).isRun c.now with
    | false => simp [hrun]
    | true => simp [hrun]

namespace Followed

variable {id : String} {s : Record} {σ : Loop}

theorem init (hkeyed : Keyed store) (hs : store.lookup id = some s) :
    Followed id s { store := store, accepted := [] } := by
  refine ⟨hkeyed, ⟨s, hs, rfl, ?_⟩, ?_⟩
  · cases hlast : s.lastRun with
    | none => simp [Loop.history, Loop.starts, hlast]
    | some t => simp [Loop.history, Loop.starts, hlast]
  · cases hlast : s.lastRun with
    | none => simp [Loop.history, Loop.starts, hlast]
    | some t => simp [Loop.history, Loop.starts, hlast]

variable {s' : Record}

/-- A start comes two minutes after the last one, and so after each one before. -/
theorem le_of_due (h : Followed id s σ) (hs' : σ.store.lookup id = some s')
    (hrun : ∀ t, s'.lastRun = some t → 2 * Clock.minute ≤ now.instant - t) :
    ∀ t ∈ σ.history id s, 2 * Clock.minute ≤ now.instant - t := by
  obtain ⟨s'', hs'', -, hlast⟩ := h.stored
  rw [hs'] at hs''
  cases hs''
  have hspaced := h.spaced
  cases hhistory : σ.history id s with
  | nil => simp
  | cons last past =>
    rw [hhistory] at hlast hspaced
    obtain ⟨hbefore, -⟩ := List.pairwise_cons.1 hspaced
    have hnow := hrun last hlast
    intro t ht
    rcases List.mem_cons.1 ht with rfl | ht
    · exact hnow
    · have hstep := hbefore t ht
      have hminute : 0 < Clock.minute := by decide
      omega

theorem check (h : Followed id s σ) (startedAt : Reading) (c : Check) :
    Followed id s (σ.check startedAt c) := by
  obtain ⟨s', hs', heditable, hlast⟩ := h.stored
  have hstarts := @Loop.starts_check startedAt σ c id s' h.keyed hs'
  have hhistory : (σ.check startedAt c).history id s =
      if c.runs startedAt && (examine s' c.now (c.world id)).isRun c.now
      then c.now.instant :: σ.history id s else σ.history id s := by
    unfold Loop.history
    rw [hstarts]
    split <;> rfl
  cases hruns : c.runs startedAt with
  | false =>
    have hstore : (σ.check startedAt c).store = σ.store := by simp [Loop.check, hruns]
    rw [hruns, Bool.false_and, if_neg Bool.false_ne_true] at hhistory
    refine ⟨by rw [hstore]; exact h.keyed, ⟨s', by rw [hstore]; exact hs', heditable, ?_⟩, ?_⟩
    · rw [hhistory]
      exact hlast
    · rw [hhistory]
      exact h.spaced
  | true =>
    have hstore : (σ.check startedAt c).store = checkSchedulesAt c.now c.world σ.store := by
      simp [Loop.check, hruns]
    obtain ⟨hkeyed, hlookup⟩ := h.keyed.pass c.now c.world id
    rw [hs'] at hlookup
    rw [hruns, Bool.true_and] at hhistory
    refine ⟨by rw [hstore]; exact hkeyed, ⟨s'.after c.now (c.world id), ?_, ?_, ?_⟩, ?_⟩
    · rw [hstore]
      exact hlookup
    · exact (s'.after_editable _ _).trans heditable
    · rw [hhistory, s'.after_lastRun]
      split
      · rfl
      · exact hlast
    · rw [hhistory]
      split
      · rename_i hrun
        obtain ⟨-, hdue⟩ := examine_ran (of_decide_eq_true hrun)
        exact List.pairwise_cons.2
          ⟨h.le_of_due hs' (shouldRun_iff.1 hdue).2.2, h.spaced⟩
      · exact h.spaced

theorem run (h : Followed id s σ) (startedAt : Reading) (checks : List Check) :
    Followed id s (σ.run startedAt checks) := by
  induction checks generalizing σ with
  | nil => exact h
  | cons c checks ih => exact ih (h.check startedAt c)

/-- What the pass sends for the record. -/
theorem sends (h : Followed id s σ) (startedAt : Reading) {c : Check}
    (hruns : c.runs startedAt = true) (hs' : σ.store.lookup id = some s') :
    σ.Sends startedAt c id ↔ (examine s' c.now (c.world id)).Sends := by
  have hmem : id ∈ σ.store.keys := AList.lookup_isSome.1 (by rw [hs']; rfl)
  have hfound := @Keyed.verdict c.now c.world id σ.store.keys σ.store.keys_nodup _ h.keyed
  rw [if_pos hmem, hs'] at hfound
  have hiff (v : Verdict) : (id, v) ∈ σ.finds startedAt c ↔ v = examine s' c.now (c.world id) := by
    have hfilter : (id, v) ∈ (verdicts c.now c.world σ.store.keys σ.store).filter
        (fun found => found.1 == id) ↔ (id, v) ∈ verdicts c.now c.world σ.store.keys σ.store := by
      simp
    rw [hfound] at hfilter
    unfold Loop.finds
    rw [if_pos hruns, ← hfilter]
    simp
  unfold Loop.Sends
  simp [hiff]

/-- A start that is due is sent two minutes after every start before it. -/
theorem shouldRun_history (h : Followed id s σ) (hs' : σ.store.lookup id = some s') :
    shouldRun s' now.weekday now.format now.instant = true ↔
      Due s now ∧ Padded s.time ∧ ∀ t ∈ σ.history id s, 2 * Clock.minute ≤ now.instant - t := by
  obtain ⟨s'', hs'', heditable, hlast⟩ := h.stored
  rw [hs'] at hs''
  cases hs''
  have htime : s'.time = s.time := congrArg Editable.time heditable
  have hdays : s'.daysOfWeek = s.daysOfWeek := congrArg Editable.daysOfWeek heditable
  rw [shouldRun_iff, Due, Due, htime, hdays]
  refine and_congr_right fun _ => and_congr_right fun _ => ⟨h.le_of_due hs', fun hall t ht => ?_⟩
  rw [hlast] at ht
  exact hall t (List.mem_of_mem_head? ht)

end Followed

theorem meets_iff {started : List Int} :
    ((Due s now ∧ Padded s.time ∧ ∀ t ∈ started, 2 * Clock.minute ≤ now.instant - t) ↔
      Says s started now) ↔ Meets s started now := by
  have hminute : 0 < Clock.minute := by decide
  unfold Says Meets
  by_cases hdue : Due s now
  · simp only [hdue, true_and, forall_const]
    constructor
    · intro hiff
      by_cases hrecent : ∃ t ∈ started, Recent t now
      · exact .inl hrecent
      · have hspaced := hiff.2 fun t ht hnow => hrecent ⟨t, ht, hnow⟩
        refine .inr ⟨hspaced.1, fun t ht => ?_⟩
        have hpast := hspaced.2 t ht
        omega
    · rintro (⟨t, ht, hle, hlt⟩ | ⟨hpadded, hpast⟩)
      · constructor
        · intro hspaced
          have hfar := hspaced.2 t ht
          omega
        · intro hnone
          exact absurd ⟨hle, hlt⟩ (hnone t ht)
      · constructor
        · intro hspaced t ht hrecent
          have hfar := hspaced.2 t ht
          have hnear := hrecent.2
          omega
        · intro hnone
          refine ⟨hpadded, fun t ht => ?_⟩
          by_contra hlt
          exact hnone t ht ⟨hpast t ht, by omega⟩
  · simp [hdue]

/-- In every run of the loop: a pass sends START exactly where the schedule says so if and only
    if the record meets the condition there, and no minute of the clock has two starts. -/
theorem schedule_fires {store : Store} (hkeyed : Keyed store) {id : String} {s : Record}
    (hs : store.lookup id = some s) (henabled : s.enabled = true) (startedAt : Reading)
    (checks : List Check) :
    let σ := Loop.run startedAt { store := store, accepted := [] } checks
    (∀ c : Check, c.runs startedAt = true → Open s (c.world id) →
      ((σ.Sends startedAt c id ↔ Says s (σ.history id s) c.now) ↔
        Meets s (σ.history id s) c.now)) ∧
      (σ.starts id).Pairwise fun later earlier =>
        2 * Clock.minute ≤ later.instant - earlier.instant ∧
          ¬ (earlier.offset = later.offset ∧ earlier.minutes = later.minutes) := by
  intro σ
  have hfollowed : Followed id s σ := (Followed.init hkeyed hs).run startedAt checks
  refine ⟨fun c hruns hopen => ?_, ?_⟩
  · obtain ⟨s', hs', heditable, -⟩ := hfollowed.stored
    have henabled' : s'.enabled = true := (congrArg Editable.enabled heditable).trans henabled
    have harea : s'.areaID = s.areaID := congrArg Editable.areaID heditable
    have hopen' : Open s' (c.world id) := by
      unfold Open
      rw [harea]
      exact hopen
    rw [hfollowed.sends startedAt hruns hs', examine_sends henabled' hopen',
      hfollowed.shouldRun_history hs']
    exact meets_iff
  · have hspaced := (List.pairwise_append.1 hfollowed.spaced).1
    refine (List.pairwise_map.1 hspaced).imp fun {later earlier} hfar => ⟨hfar, ?_⟩
    rintro ⟨hoffset, hminutes⟩
    have hnear := Clock.Reading.near hoffset hminutes
    have hminute : 0 < Clock.minute := by decide
    omega

/-! ### Where it goes wrong -/

/-- A record for a Monday, and a mower that may start. -/
def mondays (time : String) (lastRun : Option Int) : Record :=
  { id := "1", areaID := 0, areaName := "", time := time, daysOfWeek := [1], enabled := true,
    createdAt := 0, lastRun := lastRun, lastSkipReason := "", lastSkippedAt := none }

def idle : World :=
  { status := { state := 1, stateName := "IDLE", hasHighLevelStatus := true, emergency := false,
                highLevelEmergency := false, hasEmergencyStatus := true, sessionActive := false,
                sessionKnown := true, resumeAvailable := false, resumeKnown := true }
    soil := none, areas := fun _ => .endOfList, start := some true }

/-- 2026-06-01 09:05 UTC, a Monday. -/
def monday : Reading := { instant := 1780304700 * Clock.second, offset := 0 }

def tick (now : Reading) : Check := { startup := false, now := now, world := fun _ => idle }

def stored (s : Record) : Store := AList.singleton s.id s

theorem stored_lookup (s : Record) : (stored s).lookup s.id = some s := AList.lookup_insert ∅

theorem stored_keyed (s : Record) : Keyed (stored s) := by
  intro id s' hs'
  have hmem : id ∈ stored s := AList.lookup_isSome.1 (by rw [hs']; rfl)
  have hid : id = s.id := by
    rw [AList.mem_keys] at hmem
    simpa [stored, AList.keys_singleton] using hmem
  rw [hid, stored_lookup] at hs'
  cases hs'
  exact hid.symm

theorem schedule_fires_monday :
    Loop.Sends monday { store := stored (mondays "09:05" none), accepted := [] }
        (tick monday) "1" ↔ Says (mondays "09:05" none) [] monday :=
  ((schedule_fires (stored_keyed _) (stored_lookup (mondays "09:05" none)) rfl monday []).1
    (tick monday) rfl ⟨by decide, rfl, .inl rfl⟩).2
      fun _ => .inr ⟨by rintro h m hparse; cases hparse; decide +kernel, nofun⟩

/-- A time without its leading zero is accepted, due and not started; nor is a record that was
    run, by the clock of then, an hour after the clock of now. -/
theorem schedule_holds_back :
    (validateSchedule (mondays "9:05" none)).toOption = some (mondays "9:05" none) ∧
      Says (mondays "9:05" none) [] monday ∧
      ¬ Loop.Sends monday { store := stored (mondays "9:05" none), accepted := [] }
          (tick monday) "1" ∧
      Says (mondays "09:05" (some (monday.instant + 60 * Clock.minute)))
        [monday.instant + 60 * Clock.minute] monday ∧
      ¬ Loop.Sends monday
          { store := stored (mondays "09:05" (some (monday.instant + 60 * Clock.minute)))
            accepted := [] } (tick monday) "1" := by
  have hnever (s : Record) (hid : s.id = "1")
      (hrun : shouldRun s monday.weekday monday.format monday.instant = false)
      (henabled : s.enabled = true) :
      ¬ Loop.Sends monday { store := stored s, accepted := [] } (tick monday) "1" := by
    rw [← hid, (Followed.init (stored_keyed s) (stored_lookup s)).sends monday rfl
      (stored_lookup s)]
    simp [examine, henabled, tick, hrun, Verdict.Sends]
  refine ⟨by decide +kernel, ⟨⟨by decide +kernel, by decide +kernel⟩, by simp⟩,
    hnever _ rfl (by decide +kernel) rfl, ⟨⟨by decide +kernel, by decide +kernel⟩, ?_⟩,
    hnever _ rfl (by decide +kernel) rfl⟩
  intro t ht hrecent
  obtain rfl : t = monday.instant + 60 * Clock.minute := by simpa using ht
  exact absurd hrecent.1 (by decide)

end Schedule
end Mowgli
