import Mathlib.Data.List.Nodup
import Mowgli.Params.LogCrash
import Mowgli.Params.StoreRely

/-!
# StoreRecords — the RAM mirror, and the records in flash

`s_stored` and `s_stored_valid` say, parameter by parameter, what the newest record in
flash holds. `Mirror` is that sentence. It is established by a boot, which loads the
record entry by entry (`mirror_load`), and by a finished commit, which marks the
snapshot it wrote (`mirror_markStored`).

A boot that had to erase and failed is the exception the source makes: it has loaded
nothing, and its mirror is empty whatever the flash has become (`EraseFailed`).
-/

namespace Mowgli
namespace Params

section

open Binary32 (Bits)
open Trace

variable {B : Build} {T : Table}

/-! ## Indices -/

variable {i : Nat}

theorem Table.index_some {id : BitVec 16} (h : T.index id = some i) :
    i < T.count ∧ (T.spec i).id = id := by
  obtain ⟨hlt, hid, _⟩ := List.findIdx?_eq_some_iff_getElem.1 h
  refine ⟨hlt, ?_⟩
  unfold Table.spec
  rw [List.getD_eq_getElem?_getD, List.getElem?_eq_getElem hlt]
  exact beq_iff_eq.1 hid

theorem Table.spec_inj {j : Nat} (hi : i < T.count) (hj : j < T.count)
    (h : (T.spec i).id = (T.spec j).id) : i = j := by
  unfold Table.spec at h
  rw [List.getD_eq_getElem?_getD, List.getD_eq_getElem?_getD, List.getElem?_eq_getElem hi,
    List.getElem?_eq_getElem hj] at h
  have hi' : i < (T.specs.map Spec.id).length := by rw [List.length_map]; exact hi
  have hj' : j < (T.specs.map Spec.id).length := by rw [List.length_map]; exact hj
  have hids : (T.specs.map Spec.id)[i] = (T.specs.map Spec.id)[j] := by
    rw [List.getElem_map, List.getElem_map]
    exact h
  exact T.nodup.getElem_inj_iff.1 hids

theorem Table.index_spec (hi : i < T.count) : T.index (T.spec i).id = some i := by
  cases h : T.index (T.spec i).id with
  | some j =>
    obtain ⟨hj, hid⟩ := Table.index_some h
    rw [Table.spec_inj hj hi hid]
  | none =>
    have hmem : T.specs[i] ∈ T.specs := List.getElem_mem hi
    have := List.findIdx?_eq_none_iff.1 h _ hmem
    unfold Table.spec at this
    rw [List.getD_eq_getElem?_getD, List.getElem?_eq_getElem hi] at this
    simp at this

theorem Table.mem_persistent : i ∈ T.persistent ↔ i < T.count ∧ T.isVolatile i = false := by
  simp [Table.persistent]

/-- An encoded snapshot holds the snapshot's value of every persistent parameter. -/
theorem recordValue_persisted {values : Nat → Bits} (hi : i < T.count) (hv : T.isVolatile i = false)
    : Log.recordValue (T.persisted values) (T.spec i).id = some (values i) := by
  refine Log.recordValue_of_mem ?_ ?_
  · exact List.mem_map.2 ⟨i, Table.mem_persistent.2 ⟨hi, hv⟩, rfl⟩
  · unfold Table.persisted
    rw [List.map_map]
    refine List.Nodup.map_on ?_ (List.Nodup.filter _ List.nodup_range)
    intro i hi j hj h
    exact Table.spec_inj (Table.mem_persistent.1 hi).1 (Table.mem_persistent.1 hj).1 h

/-! ## The mirror -/

/-- What the mirror says of parameter `i`. -/
def Own.storedValue (o : Own) (i : Nat) : Option Bits :=
  if o.storedValid i then some (o.stored i) else none

/-- What the newest record in `flash` holds for parameter `i`. -/
def recorded (B : Build) (flash : Flash) (i : Nat) : Option Bits :=
  Log.recordValue (Log.newestEntries flash B.areaWords) (B.table.spec i).id

/-- An erase of this boot has failed. -/
def EraseFailed (log : List Mark) : Prop :=
  Since (fun m => m.obs ≠ .booted) (fun m _ => m.obs = .erase false) log

/-- The mirror is the newest record, or it is empty after a failed erase. -/
def Mirror (B : Build) (s : Store) : Prop :=
  ∀ i, i < B.table.count → B.table.isVolatile i = false →
    s.own.storedValue i = recorded B s.flash i ∨
      (EraseFailed s.log ∧ s.own.storedValue i = none)

theorem loadEntry_storedValue {s : Store} {e : Log.Entry} (hi : i < B.table.count)
    (hv : B.table.isVolatile i = false) : (loadEntry B s e).own.storedValue i =
      if e.1 = (B.table.spec i).id then some e.2 else s.own.storedValue i := by
  unfold loadEntry
  by_cases he : e.1 = (B.table.spec i).id
  · rw [if_pos he, he, Table.index_spec hi]
    simp [hv, Own.storedValue]
  · rw [if_neg he]
    cases hj : B.table.index e.1 with
    | none => rfl
    | some j =>
      have hne : i ≠ j := fun hij => he (hij ▸ (Table.index_some hj).2.symm)
      dsimp only
      split_ifs with hvol
      · rfl
      · simp [Own.storedValue, hne]

/-- **Loading a record makes the mirror of it.** -/
theorem mirror_load {s : Store} {off : Nat} (hi : i < B.table.count)
    (hv : B.table.isVolatile i = false) (hempty : s.own.storedValue i = none) :
    (loadRecord B off s).own.storedValue i =
      Log.recordValue (Log.entries s.flash off) (B.table.spec i).id := by
  unfold loadRecord
  generalize Log.entries s.flash off = es
  induction es using List.reverseRecOn with
  | nil => exact hempty
  | append_singleton es e ih =>
    rw [List.foldl_append, Log.recordValue_append, ← ih]
    exact loadEntry_storedValue hi hv

theorem markStored_storedValue {values : Nat → Bits} {o : Own} (hi : i < B.table.count)
    (hv : B.table.isVolatile i = false) :
    (markStored B values o).storedValue i = some (values i) := by
  simp [markStored, Own.storedValue, hi, hv]

end

/-!
## What the store does to the records in flash

Two sentences about the log are proved here by one invariant, because they rest on the
same facts about the flash.

* **An erase is justified** (`EraseJustified`): where a record was committed, the
  registers held a pending request at that boot, and the interrupt had accepted it.
* **A report is true** (`Told`): the flags of a value report and a commit that found
  nothing to write are what the newest record in flash says.

Each of them needs one assumption that the other does not; `Premises` holds the two, and
what depends on one stands behind it.

`Recorded` is the invariant between any two statements. `Ready` is what the foreground
rests in: the mirror is the newest record, a completed record lies below the append
point, and **the append point is a place the scanner walks to**, with erased words or the
commit in progress behind it.
-/

open Binary32 (Bits)
open Log (Walk ErasedFrom Partial)
open Trace

/-! ## Sentences about the log -/

/-- `fw_params_request_reset(id)` has returned 1, in whatever boot. -/
def AcceptedEver (id : Word) (log : List Mark) : Prop :=
  Once (fun m _ => m.obs = .resetCall id true) log

/-- A record was completed, and nothing was erased since. -/
def Kept (log : List Mark) : Prop :=
  Since (fun m => ∀ ok, m.obs ≠ .erase ok) (fun m _ => m.obs = .committed) log

/-- The last snapshot of this boot is one a commit found nothing to write of. -/
def UnchangedNow (snapshot : Nat → Bits) (log : List Mark) : Prop :=
  Since (fun m => m.obs ≠ .booted ∧ ∀ values, m.obs ≠ .snapshot values)
    (fun m _ => m.obs = .unchanged snapshot) log

/-- The area held a committed record: the scanner finds one, or one was completed and
    nothing was erased since. -/
def Committed (B : Build) (flash : Flash) (past : List Mark) : Prop :=
  (Log.scan flash B.areaWords).lastValid.isSome = true ∨ Kept past

/-- An erase over a committed record: the boot found this request pending, and it is one
    the interrupt had accepted. -/
def EraseJustified (B : Build) (m : Mark) (past : List Mark) : Prop :=
  ∀ ok, m.obs = .erase ok → Committed B m.flash past →
    SinceBoot (fun b => b.obs = .booted ∧ b.rtc.isPending = true ∧
      b.rtc.lastRequestId = m.rtc.lastRequestId) past ∧
    AcceptedEver m.rtc.lastRequestId past

/-- A value report is about the value it has just read, and its PERSISTED flag is what
    the newest record says of that value. -/
def ValueTrue (B : Build) (m : Mark) (past : List Mark) : Prop :=
  ∀ i packet, m.obs = .value i packet →
    i < B.table.count ∧ packet.paramId = (B.table.spec i).id ∧
    (packet.persisted = true →
      B.table.isVolatile i = false ∧ recorded B m.flash i = some packet.value) ∧
    (B.table.isVolatile i = false → ¬EraseFailed past →
      recorded B m.flash i = some packet.value → packet.persisted = true) ∧
    Since (fun m => ∀ j q, m.obs ≠ .value j q) (fun m _ => m.obs = .valueRead i packet.value) past

/-- A commit finds nothing to write when the newest record holds its whole snapshot. -/
def UnchangedTrue (B : Build) (m : Mark) (past : List Mark) : Prop :=
  ∀ snapshot, m.obs = .unchanged snapshot →
    (∀ i, i < B.table.count → B.table.isVolatile i = false →
      recorded B m.flash i = some (snapshot i)) ∧
    Since (fun m => ∀ values, m.obs ≠ .unchanged values) (fun m _ => m.obs = .snapshot snapshot)
      past

/-- A status report says UNCHANGED if the last commit that took a snapshot found nothing
    to write. The newest record still holds that snapshot, and the applied values are the
    snapshot too, but for those set since. -/
def StatusTrue (B : Build) (m : Mark) (past : List Mark) : Prop :=
  ∀ packet applied, m.obs = .status packet applied → packet.lastCommit = .unchanged →
    ∃ snapshot, UnchangedNow snapshot past ∧
      ∀ i, i < B.table.count → B.table.isVolatile i = false →
        recorded B m.flash i = some (snapshot i) ∧ (applied i = snapshot i ∨ SetSince i past)

def Told (B : Build) (m : Mark) (past : List Mark) : Prop :=
  ValueTrue B m past ∧ UnchangedTrue B m past ∧ StatusTrue B m past

/-! ## The invariant -/

/-- What a run is taken under. -/
structure Premises where
  /-- The registers held no pending request when the board was first switched on. -/
  cleared : Prop
  /-- A word the flash failed to program is not the requested one. -/
  strict : Prop

/-- A walk finds a valid record at or before `limit`. -/
def Secured (B : Build) (flash : Flash) (limit : Nat) : Prop :=
  ∃ off o n, Walk flash B.areaWords off (some o) n ∧ off ≤ limit

structure Recorded (B : Build) (A : Premises) (s : Store) : Prop where
  marked : A.cleared → s.rtc.isPending = true → AcceptedEver s.rtc.lastRequestId s.log
  queued : s.shared.resetRequested = true → AcceptedEver s.shared.resetRequestId s.log
  kept : Kept s.log → Secured B s.flash B.areaWords
  erases : A.cleared → Always (EraseJustified B) s.log
  told : A.strict → Always (Told B) s.log

/-- A commit in progress, `k` of its words programmed. -/
structure Writing (B : Build) (flash : Flash) (o : Own) (k : Nat) : Prop where
  walk : ∃ v n, Walk flash B.areaWords o.nextFree v n
  encoded : B.table.encode o.pendingValues = some o.pendingRecord
  words : o.pendingWords = o.pendingRecord.length
  fits : o.nextFree + o.pendingRecord.length ≤ B.areaWords
  done : Partial flash o.nextFree o.pendingRecord (2 * k)
  erased : ErasedFrom flash B.areaWords (o.nextFree + o.pendingRecord.length)

/-- The append point is one the scanner walks to, with erased words behind it, or the
    commit in progress. -/
def Appendable (B : Build) (flash : Flash) (o : Own) : Prop :=
  if o.pendingActive then Writing B flash o o.pendingPos ∧ o.pendingPos < o.pendingWords
  else (∃ v n, Walk flash B.areaWords o.nextFree v n) ∧ ErasedFrom flash B.areaWords o.nextFree

/-- A completed record lies below the append point, and the mirror is true. -/
structure Held (B : Build) (A : Premises) (s : Store) : Prop where
  below : Kept s.log → Secured B s.flash s.own.nextFree
  mirror : A.strict → Mirror B s

structure Ready (B : Build) (A : Premises) (s : Store) : Prop where
  held : Held B A s
  append : Published s ∨ B.areaWords ≤ s.own.nextFree ∨ Appendable B s.flash s.own

/-- Nothing is being committed. -/
def Inactive (o : Own) : Prop := o.pendingActive = false

/-- Where UNCHANGED would be reported, it is true. -/
def Settled (B : Build) (s : Store) : Prop :=
  s.shared.lastCommit = .unchanged → Inactive s.own ∧ ∃ snapshot, UnchangedNow snapshot s.log ∧
    ∀ i, i < B.table.count → B.table.isVolatile i = false →
      s.own.storedValue i = some (snapshot i) ∧
        (s.shared.values i = snapshot i ∨ SetSince i s.log)

/-- Where the foreground rests. A commit is `Settled` again only once it has decided. -/
structure Rest (B : Build) (A : Premises) (s : Store) : Prop where
  ready : Ready B A s
  settled : Settled B s

/-- The answers to be expected. -/
def Honest (A : Premises) (w : Answer) : Prop :=
  A.strict → w.programOk = false → w.damage ≠ 0#32

variable {B : Build} {A : Premises} {s s' : Store} {later log : List Mark}

abbrev recordGuard (B : Build) (A : Premises) : Guard Answer Store :=
  guard (Recorded B A) (Honest A)

variable {flash : Flash} {id : Word}

theorem Secured.whole {limit : Nat} (h : Secured B flash limit) : Secured B flash B.areaWords := by
  obtain ⟨off, o, n, hw, _⟩ := h
  exact ⟨off, o, n, hw, hw.le⟩

/-- What is programmed from `limit` on leaves a record below it. -/
theorem Secured.congr {flash' : Flash} {limit : Nat} (h : Secured B flash limit)
    (hsame : ∀ w, w < limit → flash w = flash' w) : Secured B flash' limit := by
  obtain ⟨off, o, n, hw, hoff⟩ := h
  exact ⟨off, o, n, hw.congr fun w hw => hsame w (by omega), hoff⟩

theorem Secured.scan (h : Secured B flash B.areaWords) :
    (Log.scan flash B.areaWords).lastValid.isSome = true := by
  obtain ⟨_, _, _, hw, _⟩ := h
  exact hw.scan_ge.2 rfl

/-! ## Marks that say nothing about the records -/

/-- Neither a boot, nor an erase, nor a completed record. -/
def Neutral (o : Obs) : Prop := o ≠ .booted ∧ (∀ ok, o ≠ .erase ok) ∧ o ≠ .committed

/-- And neither a snapshot nor a report. -/
def Silent (o : Obs) : Prop :=
  Neutral o ∧ (∀ i packet, o ≠ .value i packet) ∧ (∀ snapshot, o ≠ .unchanged snapshot) ∧
    (∀ packet applied, o ≠ .status packet applied) ∧ ∀ values, o ≠ .snapshot values

theorem Neutral.kept (h : ∀ m ∈ later, Neutral m.obs) : Kept (later ++ log) ↔ Kept log :=
  Since.append_iff fun m hm => ⟨(h m hm).2.1, fun _ hc => (h m hm).2.2 hc⟩

theorem Neutral.eraseFailed (h : ∀ m ∈ later, Neutral m.obs) :
    EraseFailed (later ++ log) ↔ EraseFailed log :=
  Since.append_iff fun m hm => ⟨(h m hm).1, fun _ hc => (h m hm).2.1 false hc⟩

theorem AcceptedEver.append (h : AcceptedEver id log) : AcceptedEver id (later ++ log) := by
  induction later with
  | nil => exact h
  | cons m later ih => exact .inr ih

theorem Silent.told (h : ∀ m ∈ later, Silent m.obs) (hl : Always (Told B) log) :
    Always (Told B) (later ++ log) :=
  hl.append fun m hm _ _ =>
    ⟨fun i packet ho => absurd ho ((h m hm).2.1 i packet),
      fun snapshot ho => absurd ho ((h m hm).2.2.1 snapshot),
      fun packet applied ho => absurd ho ((h m hm).2.2.2.1 packet applied)⟩

theorem Neutral.erases (h : ∀ m ∈ later, Neutral m.obs) (hl : Always (EraseJustified B) log) :
    Always (EraseJustified B) (later ++ log) :=
  hl.append fun m hm _ _ ok ho => absurd ho ((h m hm).2.1 ok)

theorem IsCall.silent {o : Obs} (h : o.IsCall) : Silent o := by
  rcases h with ⟨id, accepted, rfl⟩ | ⟨i, value, rfl⟩
  · simp [Silent, Neutral]
  · simp [Silent, Neutral]

/-! ## Quiet statements -/

/-- A statement that leaves the flash, the registers and the reset request alone, and
    reports nothing about the records. -/
structure Quiet (s s' : Store) : Prop where
  flash : s'.flash = s.flash
  rtc : s'.rtc = s.rtc
  queued : s'.shared.resetRequested = true → s.shared.resetRequested = true ∧
    s'.shared.resetRequestId = s.shared.resetRequestId
  commit : s'.shared.lastCommit = .unchanged → s.shared.lastCommit = .unchanged
  log : ∃ later, s'.log = later ++ s.log ∧ ∀ m ∈ later, Silent m.obs

theorem Recorded.quiet (hi : Recorded B A s) (h : Quiet s s') : Recorded B A s' := by
  obtain ⟨later, hlog, hlater⟩ := h.log
  have hneutral : ∀ m ∈ later, Neutral m.obs := fun m hm => (hlater m hm).1
  refine ⟨fun ha hp => ?_, fun hq => ?_, fun hk => ?_, fun ha => ?_, fun hs => ?_⟩
  · rw [h.rtc] at hp ⊢
    rw [hlog]
    exact (hi.marked ha hp).append
  · obtain ⟨hq, hid⟩ := h.queued hq
    rw [hid, hlog]
    exact (hi.queued hq).append
  · rw [hlog, Neutral.kept hneutral] at hk
    rw [h.flash]
    exact hi.kept hk
  · rw [hlog]; exact Neutral.erases hneutral (hi.erases ha)
  · rw [hlog]; exact Silent.told hlater (hi.told hs)

/-- The mirror and the append point, and with them what is held, depend on these alone. -/
theorem Held.same (hh : Held B A s) (hflash : s'.flash = s.flash)
    (hlog : ∃ later, s'.log = later ++ s.log ∧ ∀ m ∈ later, Neutral m.obs)
    (hnext : s'.own.nextFree = s.own.nextFree)
    (hstored : s'.own.storedValue = s.own.storedValue) : Held B A s' := by
  obtain ⟨later, hlog, hlater⟩ := hlog
  refine ⟨fun hk => ?_, fun hs i hi hv => ?_⟩
  · rw [hlog, Neutral.kept hlater] at hk
    rw [hflash, hnext]
    exact hh.below hk
  · rw [hflash, hlog, hstored, Neutral.eraseFailed hlater]
    exact hh.mirror hs i hi hv

/-- The statics that say where and what the next word is. -/
def Own.records (o : Own) :=
  (o.nextFree, o.stored, o.storedValid, o.pendingActive, o.pendingRecord, o.pendingValues,
    o.pendingWords, o.pendingPos, o.resetArmed, o.resetBlocked)

/-- A quiet statement that leaves those alone too, and the applied values. -/
structure Idle (s s' : Store) : Prop extends Quiet s s' where
  records : s'.own.records = s.own.records
  values : s'.shared.values = s.shared.values

theorem Own.same_records {o o' : Own} (h : o'.records = o.records) :
    o'.storedValue = o.storedValue ∧ o'.nextFree = o.nextFree ∧
      o'.resetArmed = o.resetArmed ∧ o'.resetBlocked = o.resetBlocked ∧
      ∀ flash, Appendable B flash o → Appendable B flash o' := by
  simp only [Own.records, Prod.mk.injEq] at h
  obtain ⟨h1, h2, h3, h4, h5, h6, h7, h8, h9, h10⟩ := h
  refine ⟨funext fun i => by unfold Own.storedValue; rw [h2, h3], h1, h9, h10, fun flash ha => ?_⟩
  unfold Appendable at ha ⊢
  rw [h4]
  cases hact : o.pendingActive with
  | false =>
    rw [hact] at ha
    rw [h1]
    exact ha
  | true =>
    rw [hact] at ha
    obtain ⟨hw, hpos⟩ := ha
    rw [h7, h8]
    exact ⟨⟨h1 ▸ hw.walk, by rw [h5, h6]; exact hw.encoded, by rw [h7, h5]; exact hw.words,
      by rw [h1, h5]; exact hw.fits, by rw [h1, h5]; exact hw.done,
      by rw [h1, h5]; exact hw.erased⟩, hpos⟩

theorem Ready.idle (hr : Ready B A s) (h : Idle s s') : Ready B A s' := by
  obtain ⟨hstored, hnext, ha, hb, happ⟩ := Own.same_records (B := B) h.records
  obtain ⟨later, hlog, hlater⟩ := h.log
  refine ⟨hr.held.same h.flash ⟨later, hlog, fun m hm => (hlater m hm).1⟩ hnext hstored, ?_⟩
  unfold Published
  rw [ha, hb, hnext, h.flash]
  rcases hr.append with hp | hn | happ'
  · exact .inl hp
  · exact .inr (.inl hn)
  · exact .inr (.inr (happ _ happ'))

/-- What is settled stays so unless a boot, a snapshot or a commit intervenes. -/
theorem Settled.frame (h : Settled B s)
    (hc : s'.shared.lastCommit = .unchanged → s.shared.lastCommit = .unchanged)
    (hina : Inactive s.own → Inactive s'.own) (hstored : s'.own.storedValue = s.own.storedValue)
    (hlog : ∃ later, s'.log = later ++ s.log ∧
      ∀ m ∈ later, m.obs ≠ .booted ∧ ∀ values, m.obs ≠ .snapshot values)
    (hset : ∀ i, s'.shared.values i = s.shared.values i ∨ SetSince i s'.log) : Settled B s' := by
  intro hcommit
  obtain ⟨hinactive, snapshot, hnow, hall⟩ := h (hc hcommit)
  obtain ⟨later, hlog, hlater⟩ := hlog
  refine ⟨hina hinactive, snapshot, hlog ▸ hnow.later hlater, fun i hi hv => ?_⟩
  obtain ⟨hvalue, happlied⟩ := hall i hi hv
  refine ⟨by rw [hstored]; exact hvalue, ?_⟩
  rcases hset i with heq | hset
  · rw [heq, hlog]
    exact happlied.imp_right fun h => h.later fun m hm => (hlater m hm).2
  · exact .inr hset

theorem Settled.of_ne (h : s.shared.lastCommit ≠ .unchanged) : Settled B s :=
  fun hc => absurd hc h

theorem Settled.idle (h : Settled B s) (hi : Idle s s') : Settled B s' := by
  obtain ⟨later, hlog, hlater⟩ := hi.log
  have hrecords := hi.records
  simp only [Own.records, Prod.mk.injEq] at hrecords
  exact h.frame hi.commit (fun hina => hrecords.2.2.2.1.trans hina)
    (Own.same_records (B := B) hi.records).1
    ⟨later, hlog, fun m hm => ⟨(hlater m hm).1.1, (hlater m hm).2.2.2.2⟩⟩
    fun i => .inl (congrFun hi.values i)

theorem Rest.idle (hr : Rest B A s) (h : Idle s s') : Rest B A s' :=
  ⟨hr.ready.idle h, hr.settled.idle h⟩

/-! ## The interrupt -/

variable {answers : Answer → Prop} {inv : Store → Prop}

theorem held_stable : (guard inv answers).Stable (Held B A) := by
  intro s s' hh h _
  obtain ⟨calls, hlog, hcalls⟩ := h.log
  exact hh.same h.flash ⟨calls, hlog, fun m hm => (IsCall.silent (hcalls m hm)).1⟩
    (congrArg _ h.own) (by rw [h.own])

theorem ready_stable : (recordGuard B A).Stable (Ready B A) := by
  intro s s' hr h hi
  have hheld : (recordGuard B A).Stable (Held B A) := held_stable
  refine ⟨hheld s s' hr.held h hi, ?_⟩
  rw [h.flash, h.own, h.published]
  exact hr.append

theorem settled_stable : (guard inv answers).Stable (Settled B) := by
  intro s s' hs h _
  obtain ⟨calls, hlog, hcalls⟩ := h.log
  have hsilent := fun m hm => IsCall.silent (hcalls m hm)
  exact hs.frame h.commit (fun hina => by rw [h.own]; exact hina) (by rw [h.own])
    ⟨calls, hlog, fun m hm => ⟨(hsilent m hm).1.1, (hsilent m hm).2.2.2.2⟩⟩ h.set

theorem rest_stable : (recordGuard B A).Stable (Rest B A) := fun s s' hr h hi =>
  ⟨ready_stable s s' hr.ready h hi, settled_stable s s' hr.settled h hi⟩

theorem accepted_stable : (guard inv answers).Stable fun s => AcceptedEver id s.log := by
  intro s s' ha h _
  obtain ⟨calls, hlog, _⟩ := h.log
  rw [hlog]
  exact ha.append

theorem Recorded.requestReset (hi : Recorded B A s) :
    Recorded B A (s.called id (requestReset id s.own s.shared)) := by
  have hcases := requestReset_cases id s.own s.shared
  generalize Params.requestReset id s.own s.shared = r at hcases
  have hsilent : ∀ m ∈ [(⟨s.flash, s.rtc, .resetCall id r.1⟩ : Mark)], Silent m.obs := by
    intro m hm
    rw [List.mem_singleton.1 hm]
    exact IsCall.silent (.inl ⟨id, r.1, rfl⟩)
  refine ⟨fun ha hp => .inr (hi.marked ha hp), fun hq => ?_, fun hk => ?_, fun ha => ?_, fun hs => ?_⟩
  · rcases hcases with ⟨_, hs⟩ | ⟨_, _, _, hq', hid'⟩ | ⟨hok, _, _, _, hs⟩
    · have hq' := (congrArg Shared.resetRequested hs).symm.trans hq
      exact .inr ((congrArg Shared.resetRequestId hs).symm ▸ hi.queued hq')
    · exact .inr (hid'.symm ▸ hi.queued (hq'.symm.trans hq))
    · -- A request that takes ownership is the one this very call has accepted.
      have hid : (s.called id r).shared.resetRequestId = id := congrArg Shared.resetRequestId hs
      rw [hid]
      exact .inl (congrArg (Obs.resetCall id) hok)
  · exact hi.kept ((Neutral.kept fun m hm => (hsilent m hm).1).1 hk)
  · exact Neutral.erases (fun m hm => (hsilent m hm).1) (hi.erases ha)
  · exact Silent.told hsilent (hi.told hs)

theorem Recorded.irq {i : Irq} (hi : Recorded B A s) : Recorded B A (irq B i s) := by
  rcases irq_cases B i s with h | ⟨_, h⟩ | ⟨id, h, _⟩
  · rw [h]; exact hi
  · obtain ⟨calls, hshape, hcalls⟩ := h.shape
    refine hi.quiet ⟨?_, ?_, fun hq => ⟨h.requested.symm.trans hq, h.requestId⟩, h.commit,
      calls, ?_, fun m hm => IsCall.silent (.inr (hcalls m hm))⟩ <;> rw [hshape]
  · rw [h]; exact hi.requestReset

end Params
end Mowgli
