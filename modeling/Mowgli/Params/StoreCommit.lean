import Mowgli.Params.StoreRecords

/-!
# StoreCommit — the service routine keeps the records

The routines of `fw_params_service`, one triple each, all from `Rest` back to `Rest`.
Most of their statements are `Idle` and need nothing said about them. Four do:

* a word of the commit (`programWord_triple`), where the flash changes under the mirror;
* the end of a commit (`finishCommit_triple`), where the mirror catches up;
* the decision that nothing has changed, and
* the value report, which are where the mirror is relied on.

While a reset is taken the append point is lost, since the commit in progress is dropped
where it stands. What remains is `Held`, until the reset is published.
-/

namespace Mowgli
namespace Params

open Binary32 (Bits)
open Log (Walk ErasedFrom Partial)
open Trace

variable {B : Build} {A : Premises}

/-! ## Idle statements -/

theorem Idle.refl (s : Store) : Idle s s :=
  ⟨⟨rfl, rfl, fun h => ⟨h, rfl⟩, fun h => h, [], rfl, by simp⟩, rfl, rfl⟩

variable {s : Store} {obs : Obs} {α : Type} {c : Own → Commit} {o : Own} {i : Nat} {flash : Flash}

theorem Idle.note (h : Silent obs) : Idle s (s.note obs) :=
  ⟨⟨rfl, rfl, fun h => ⟨h, rfl⟩, fun h => h, [_], rfl, fun m hm => by
    rw [List.mem_singleton.1 hm]; exact h⟩, rfl, rfl⟩

theorem Idle.ofOwn {f : Own → Own} (h : (f s.own).records = s.own.records) : Idle s (s.setOwn f) :=
  ⟨⟨rfl, rfl, fun h => ⟨h, rfl⟩, fun h => h, [], rfl, by simp⟩, h, rfl⟩

variable {f : Shared → Shared} {snapshot : Nat → Bits} {w : Answer}

theorem Idle.ofShared (hq : (f s.shared).resetRequested = true → s.shared.resetRequested = true ∧
      (f s.shared).resetRequestId = s.shared.resetRequestId)
    (hc : (f s.shared).lastCommit = .unchanged → s.shared.lastCommit = .unchanged)
    (hv : (f s.shared).values = s.shared.values) : Idle s (s.setShared f) :=
  ⟨⟨rfl, rfl, hq, hc, [], rfl, by simp⟩, rfl, hv⟩

theorem idle_get {r : Store → α} : (Routine.get r : Task α).Does Idle :=
  .get Idle.refl

theorem idle_setOwn {f : Own → Own} (h : ∀ o, (f o).records = o.records) :
    (setOwn f).Does Idle :=
  .modify fun s => .ofOwn (h s.own)

theorem idle_setShared (hq : ∀ h, (f h).resetRequested = true → h.resetRequested = true ∧
      (f h).resetRequestId = h.resetRequestId)
    (hc : ∀ h, (f h).lastCommit = .unchanged → h.lastCommit = .unchanged)
    (hv : ∀ h, (f h).values = h.values) : (setShared f).Does Idle :=
  .modify fun s => .ofShared (hq s.shared) (hc s.shared) (hv s.shared)

theorem idle_reportCommit (hc : ∀ o, c o ≠ .unchanged) : (reportCommit c).Does Idle :=
  .bind (.modify fun s => .ofShared (fun h => ⟨h, rfl⟩) (fun h => absurd h (hc s.own)) rfl)
    fun _ => idle_setShared (fun _ h => ⟨h, rfl⟩) (fun _ h => h) fun _ => rfl

theorem idle_refuseCommit : refuseCommit.Does Idle :=
  .bind idle_get fun _ => .ite
    (.bind (idle_setShared (fun _ h => ⟨h, rfl⟩) (fun _ h => h) fun _ => rfl) fun _ =>
      idle_reportCommit fun _ => refusedCommit_ne) .ret

theorem idle_serviceStatus {now : Word} : (serviceStatus now).Does Idle :=
  .bind idle_get fun _ => .ite
    (.bind (idle_setOwn fun _ => rfl) fun _ =>
      idle_setShared (fun _ h => ⟨h, rfl⟩) (fun _ h => h) fun _ => rfl) .ret

/-- An idle routine comes back to where the foreground rests, with what else it knows of
    the statics `records` lists. -/
theorem idle_triple {m : Task α} (hm : m.Does Idle) {K : Own → Prop}
    (hK : ∀ {o o' : Own}, o'.records = o.records → K o → K o') :
    (recordGuard B A).Triple (fun s => Rest B A s ∧ K s.own) m
      (fun _ s => Rest B A s ∧ K s.own) :=
  .does hm (rest_stable.and (own_stable fun _ _ o => K o)) fun _ _ hi hs h =>
    ⟨hi.quiet h.toQuiet, hs.1.idle h, hK h.records hs.2⟩

theorem idle_rest {m : Task α} (hm : m.Does Idle) :
    (recordGuard B A).Triple (Rest B A) m (fun _ => Rest B A) :=
  .does hm rest_stable fun _ _ hi hs h => ⟨hi.quiet h.toQuiet, hs.idle h⟩

/-- **A commit that decides anything but UNCHANGED** brings the foreground to rest. -/
theorem decide_rest (hc : ∀ o, c o ≠ .unchanged) :
    (recordGuard B A).Triple (Ready B A)
      (.modify fun s => s.setShared fun h => { h with lastCommit := c s.own })
      (fun _ => Rest B A) :=
  .modify ready_stable fun s hi hr =>
    have hidle : Idle s (s.setShared fun h => { h with lastCommit := c s.own }) :=
      .ofShared (fun h => ⟨h, rfl⟩) (fun h => absurd h (hc s.own)) rfl
    ⟨hi.quiet hidle.toQuiet, hr.idle hidle, .of_ne (hc s.own)⟩

theorem reportCommit_rest (hc : ∀ o, c o ≠ .unchanged) :
    (recordGuard B A).Triple (Ready B A) (reportCommit c) (fun _ => Rest B A) :=
  .bind (decide_rest hc) fun _ =>
    idle_rest (idle_setShared (fun _ h => ⟨h, rfl⟩) (fun _ h => h) fun _ => rfl)

theorem inactive_same {o' : Own} (h : o'.records = o.records) (hk : Inactive o) : Inactive o' := by
  simp only [Own.records, Prod.mk.injEq] at h
  exact h.2.2.2.1.trans hk

/-! ## Starting a commit -/

variable {s : Store}

/-- Without a commit in progress the pending buffers may hold anything. -/
theorem Ready.inactive (hr : Ready B A s) (h : Inactive s.own) (h' : Inactive o)
    (hnext : o.nextFree = s.own.nextFree) (hstored : o.storedValue = s.own.storedValue)
    (ha : o.resetArmed = s.own.resetArmed) (hb : o.resetBlocked = s.own.resetBlocked) :
    Ready B A { s with own := o } := by
  refine ⟨hr.held.same rfl ⟨[], rfl, by simp⟩ hnext hstored, ?_⟩
  unfold Published
  rw [ha, hb, hnext]
  rcases hr.append with hp | hn | happ
  · exact .inl hp
  · exact .inr (.inl hn)
  · refine .inr (.inr ?_)
    unfold Appendable at happ ⊢
    rw [show s.own.pendingActive = false from h] at happ
    rw [show o.pendingActive = false from h', hnext]
    exact happ

theorem Table.encode_length {T : Table} {values : Nat → Bits} {r : List Word}
    (h : T.encode values = some r) : 0 < r.length := by
  rw [(Log.encode_some h).2.2]
  simp only [Log.recordWords, Log.HEADER_WORDS]
  omega

/-- A commit that fits is one whose first word is next. -/
theorem Ready.begin {record : List Word} (hr : Ready B A s) (hina : Inactive s.own)
    (henc : B.table.encode snapshot = some record) (hrec : s.own.pendingRecord = record)
    (hfit : s.own.nextFree + record.length ≤ B.areaWords) :
    Ready B A (s.setOwn fun o => { o with
      pendingValues := snapshot, pendingWords := record.length, pendingPos := 0
      pendingActive := true }) := by
  refine ⟨hr.held.same rfl ⟨[], rfl, by simp⟩ rfl rfl, ?_⟩
  have hpos := Table.encode_length henc
  rcases hr.append with hp | hn | happ
  · exact .inl hp
  · omega
  · unfold Appendable at happ
    rw [show s.own.pendingActive = false from hina] at happ
    obtain ⟨hwalk, herased⟩ := happ
    refine .inr (.inr ⟨⟨hwalk, ?_, ?_, ?_, ?_, ?_⟩, hpos⟩)
    · exact henc.trans (congrArg some hrec.symm)
    · exact congrArg List.length hrec.symm
    · exact hrec ▸ hfit
    · exact Partial.zero herased (hrec ▸ hfit)
    · exact herased.mono (Nat.le_add_right _ _)

theorem beginCommit_triple {record : List Word} (henc : B.table.encode snapshot = some record) :
    (recordGuard B A).Triple (fun s => Ready B A s ∧ Inactive s.own)
      (beginCommit B snapshot record) (fun _ => Rest B A) := by
  unfold beginCommit
  have hstable : (recordGuard B A).Stable fun s =>
      (Ready B A s ∧ Inactive s.own) ∧ s.own.pendingRecord = record :=
    (ready_stable.and (own_stable fun _ _ o => Inactive o)).and
      (own_stable fun _ _ o => o.pendingRecord = record)
  refine .bind (Q := fun _ s => (Ready B A s ∧ Inactive s.own) ∧ s.own.pendingRecord = record)
    (.modify (ready_stable.and (own_stable fun _ _ o => Inactive o)) fun s hi h => ?_) fun _ => ?_
  · exact ⟨hi.quiet ⟨rfl, rfl, fun h => ⟨h, rfl⟩, fun h => h, [], rfl, by simp⟩,
      ⟨h.1.inactive h.2 h.2 rfl rfl rfl rfl, h.2⟩, rfl⟩
  refine .bind (.get hstable) fun full => .ite (fun _ => ?_) fun hfull => ?_
  · exact (reportCommit_rest fun _ => by simp).pre fun _ _ h => h.1.1.1
  · refine .bind (Q := fun _ => Ready B A) (.modify (hstable.and (own_stable fun _ _ o =>
      decide (o.nextFree + record.length > B.areaWords) = full)) fun s hi h => ⟨?_, ?_⟩)
      fun _ => ?_
    · exact hi.quiet ⟨rfl, rfl, fun h => ⟨h, rfl⟩, fun h => h, [], rfl, by simp⟩
    · obtain ⟨⟨⟨hr, hina⟩, hrec⟩, hdec⟩ := h
      refine hr.begin hina henc hrec ?_
      rw [← hdec] at hfull
      simpa using hfull
    · exact decide_rest (c := fun _ => .pending) fun _ => by simp

/-- A commit took this snapshot, and has not decided yet. -/
def JustTaken (snapshot : Nat → Bits) (log : List Mark) : Prop :=
  Since (fun m => ∀ values, m.obs ≠ .unchanged values) (fun m _ => m.obs = .snapshot snapshot) log

theorem justTaken_stable {inv : Store → Prop} {answers : Answer → Prop} :
    (guard inv answers).Stable fun s => JustTaken snapshot s.log := by
  intro s s' hj h _
  obtain ⟨calls, hlog, hcalls⟩ := h.log
  rw [hlog]
  exact hj.later fun m hm => (IsCall.silent (hcalls m hm)).2.2.1

/-- The applied values are this snapshot, but for those set since it was taken. -/
def Applied (snapshot : Nat → Bits) (s : Store) : Prop :=
  ∀ i, s.shared.values i = snapshot i ∨ SetSince i s.log

theorem applied_stable {inv : Store → Prop} {answers : Answer → Prop} :
    (guard inv answers).Stable (Applied snapshot) := by
  intro s s' ha h _ i
  obtain ⟨calls, hlog, hcalls⟩ := h.log
  rcases h.set i with heq | hset
  · rw [heq, hlog]
    exact (ha i).imp_right fun h => h.calls hcalls
  · exact .inr hset

theorem isUnchanged_stored (h : isUnchanged B snapshot o = true) (hi : i < B.table.count)
    (hv : B.table.isVolatile i = false) : o.storedValue i = some (snapshot i) := by
  have := List.all_eq_true.1 h i (List.mem_range.2 hi)
  simp only [hv, Bool.false_or, Bool.and_eq_true, beq_iff_eq] at this
  rw [Own.storedValue, if_pos this.1, this.2]

/-- What the mirror has a value for, the newest record holds. -/
theorem Mirror.recorded {value : Bits} (h : Mirror B s) (hi : i < B.table.count)
    (hv : B.table.isVolatile i = false) (hs : s.own.storedValue i = some value) :
    recorded B s.flash i = some value := by
  rcases h i hi hv with heq | ⟨_, hnone⟩
  · exact heq ▸ hs
  · exact absurd (hnone.symm.trans hs) (by simp)

/-- A neutral mark changes nothing the foreground rests in. -/
theorem Ready.noted (hr : Ready B A s) (h : Neutral obs) : Ready B A ((s.note obs).setShared f) :=
  ⟨hr.held.same rfl ⟨[_], rfl, fun m hm => by rw [List.mem_singleton.1 hm]; exact h⟩ rfl rfl,
    hr.append⟩

theorem commitSnapshot_triple :
    (recordGuard B A).Triple
      (fun s => (Ready B A s ∧ Inactive s.own) ∧ JustTaken snapshot s.log ∧ Applied snapshot s)
      (commitSnapshot B snapshot) (fun _ => Rest B A) := by
  unfold commitSnapshot
  have hstable : (recordGuard B A).Stable fun s =>
      (Ready B A s ∧ Inactive s.own) ∧ JustTaken snapshot s.log ∧ Applied snapshot s :=
    (ready_stable.and (own_stable fun _ _ o => Inactive o)).and
      (justTaken_stable.and applied_stable)
  refine .bind (.get hstable) fun same => .ite (fun hsame => ?_) fun _ => ?_
  · refine .bind (Q := fun _ => Rest B A) (.modify (hstable.and (own_stable fun _ _ o =>
      isUnchanged B snapshot o = same)) fun s hi h => ?_) fun _ => ?_
    · obtain ⟨⟨⟨hr, hina⟩, hj, ha⟩, hs⟩ := h
      have hstored := fun i hi hv => isUnchanged_stored (B := B) (hs.trans hsame) (i := i) hi hv
      have hneutral : Neutral (.unchanged snapshot) := by simp [Neutral]
      refine ⟨⟨fun ha hp => .inr (hi.marked ha hp), fun hq => .inr (hi.queued hq), fun hk => ?_, ?_,
        fun hstrict => ⟨⟨?_, ?_, ?_⟩, hi.told hstrict⟩⟩, hr.noted hneutral, fun _ =>
        ⟨hina, snapshot, .inl rfl, fun i hi hv => ⟨hstored i hi hv, ?_⟩⟩⟩
      · rcases hk with hk | ⟨_, hk⟩
        · exact absurd hk (by simp)
        · exact hi.kept hk
      · exact fun ha => ⟨fun _ ho => absurd ho (by simp), hi.erases ha⟩
      · exact fun i packet ho => absurd ho (by simp)
      · intro values ho
        obtain rfl := Obs.unchanged.inj ho
        refine ⟨fun i hi hv => ?_, hj⟩
        exact (hr.held.mirror hstrict).recorded hi hv (hstored i hi hv)
      · exact fun packet applied ho => absurd ho (by simp)
      · exact (ha i).imp_right fun h => .inr ⟨by simp, h⟩
    · exact idle_rest (idle_setShared (fun _ h => ⟨h, rfl⟩) (fun _ h => h) fun _ => rfl)
  · cases henc : B.table.encode snapshot with
    | some record => exact (beginCommit_triple henc).conseq (fun _ _ h => h.1.1) fun _ _ _ h => h
    | none =>
      dsimp only
      exact (reportCommit_rest fun _ => by simp).pre fun _ _ h => h.1.1.1

/-- A true mark that leaves the records alone. -/
theorem Recorded.note (hi : Recorded B A s) (h : Neutral obs)
    (ht : A.strict → Told B ⟨s.flash, s.rtc, obs⟩ s.log) : Recorded B A (s.note obs) := by
  have hneutral : ∀ m ∈ [(⟨s.flash, s.rtc, obs⟩ : Mark)], Neutral m.obs := fun m hm => by
    rw [List.mem_singleton.1 hm]; exact h
  exact ⟨fun ha hp => .inr (hi.marked ha hp), fun hq => .inr (hi.queued hq),
    fun hk => hi.kept ((Neutral.kept hneutral).1 hk),
    fun ha => Neutral.erases hneutral (hi.erases ha), fun hs => ⟨ht hs, hi.told hs⟩⟩

theorem startCommit_triple :
    (recordGuard B A).Triple (fun s => Rest B A s ∧ Inactive s.own) (startCommit B)
      (fun _ => Rest B A) := by
  have hstable : (recordGuard B A).Stable fun s => Rest B A s ∧ Inactive s.own :=
    rest_stable.and (own_stable fun _ _ o => Inactive o)
  refine .bind (armedOrBlocked_triple hstable) fun r => .ite (fun _ => ?_) fun _ => ?_
  · exact (reportCommit_rest fun _ => refusedCommit_ne).pre fun _ _ h => h.1.1.ready
  -- From the snapshot to the decision nothing can be said of an earlier UNCHANGED.
  · refine .bind (Q := fun snapshot s => (Ready B A s ∧ Inactive s.own) ∧
      JustTaken snapshot s.log ∧ Applied snapshot s)
      (.call (hstable.and iff_published_stable) fun _ s _ hi h => ⟨?_, ⟨?_, h.1.2⟩, .inl rfl, ?_⟩)
      fun snapshot => commitSnapshot_triple
    · exact hi.note (by simp [Neutral]) fun _ => ⟨fun _ _ ho => absurd ho (by simp),
        fun _ ho => absurd ho (by simp), fun _ _ ho => absurd ho (by simp)⟩
    · exact h.1.1.ready.noted (f := id) (by simp [Neutral])
    · exact fun _ => .inl rfl

/-! ## One word -/

theorem Appendable.writing (h : Appendable B flash o) (hact : o.pendingActive = true) :
    Writing B flash o o.pendingPos ∧ o.pendingPos < o.pendingWords := by
  unfold Appendable at h
  rw [hact] at h
  exact h

theorem Writing.getElem (h : Writing B flash o o.pendingPos) (hpos : o.pendingPos < o.pendingWords)
    : o.pendingRecord[o.pendingPos]? = some o.nextWord := by
  have hlt : o.pendingPos < o.pendingRecord.length := h.words ▸ hpos
  rw [Own.nextWord, List.getD_eq_getElem?_getD, List.getElem?_eq_getElem hlt]
  rfl

theorem programmed_erased {value : Word} (h : w.programOk = true) :
    programmed w Log.ERASED value = value := by
  have hall : Log.ERASED = BitVec.allOnes 32 := by decide
  rw [programmed, if_pos h, hall, BitVec.allOnes_and]

theorem damaged_ne {old value : Word} (h : w.programOk = false) (hd : w.damage ≠ 0#32) :
    programmed w old value ≠ value := by
  rw [programmed, if_neg (by simp [h])]
  intro heq
  refine hd ?_
  calc w.damage = value ^^^ (value ^^^ w.damage) := by rw [← BitVec.xor_assoc, BitVec.xor_self,
        BitVec.zero_xor]
    _ = 0#32 := by rw [heq, BitVec.xor_self]

/-- A word programmed whole takes the commit one word further. -/
theorem Writing.step {w : Answer} (h : Writing B s.flash s.own s.own.pendingPos)
    (hpos : s.own.pendingPos < s.own.pendingWords) (hok : w.programOk = true) :
    Writing B (s.programming w).flash s.own (s.own.pendingPos + 1) := by
  have hget := h.getElem hpos
  have hlt : s.own.pendingPos < s.own.pendingRecord.length := h.words ▸ hpos
  have hflash : (s.programming w).flash =
      s.flash.write (s.own.nextFree + s.own.pendingPos) s.own.nextWord := by
    show s.flash.write _ _ = _
    rw [Own.cursor, h.done.next_erased hlt, programmed_erased hok]
  obtain ⟨v, n, hwalk⟩ := h.walk
  rw [hflash]
  refine ⟨⟨v, n, hwalk.congr fun i hi => (Log.write_ne (by omega)).symm⟩, h.encoded, h.words,
    h.fits, h.done.word hget, fun i hi hia => ?_⟩
  rw [Log.write_ne (by omega)]
  exact h.erased i hi hia

/-- Below the append point nothing changes while a word is programmed. -/
theorem programming_below (hi : i < s.own.nextFree) : s.flash i = (s.programming w).flash i :=
  (Log.write_ne (by unfold Own.cursor; omega)).symm

/-- A word that does not complete the record leaves the newest record as it was, whether
    the flash took it or damaged it. -/
theorem Writing.unseen (h : Writing B s.flash s.own s.own.pendingPos)
    (hpos : s.own.pendingPos < s.own.pendingWords)
    (hw : w.programOk = true ∧ s.own.pendingPos + 1 < s.own.pendingWords ∨
      w.programOk = false ∧ w.damage ≠ 0#32) :
    Log.newestEntries (s.programming w).flash B.areaWords =
      Log.newestEntries s.flash B.areaWords := by
  obtain ⟨v, n, hwalk⟩ := h.walk
  have hlt : s.own.pendingPos < s.own.pendingRecord.length := h.words ▸ hpos
  refine (hwalk.newestEntries_congr (fun i hi => programming_below hi) ?_ ?_).symm
  · exact h.done.newest hwalk h.encoded hlt h.fits h.erased
  · rcases hw with ⟨hok, hmore⟩ | ⟨hfail, hd⟩
    · have hnext := h.step hpos hok
      obtain ⟨v', n', hwalk'⟩ := hnext.walk
      exact hnext.done.newest (hwalk.congr fun i hi => programming_below hi) hnext.encoded
        (h.words ▸ hmore) hnext.fits hnext.erased
    · exact h.done.newest_damaged hwalk h.encoded (h.getElem hpos) (damaged_ne hfail hd)
        h.fits h.erased

theorem recorded_congr {flash' : Flash}
    (h : Log.newestEntries flash' B.areaWords = Log.newestEntries flash B.areaWords) :
    recorded B flash' i = recorded B flash i := by
  unfold recorded; rw [h]

/-- What is held, after a word that does not complete the record. -/
theorem Held.programming (hh : Held B A s)
    (hnew : A.strict → Log.newestEntries (s.programming w).flash B.areaWords =
      Log.newestEntries s.flash B.areaWords) : Held B A (s.programming w) := by
  have hneutral : ∀ m ∈ [(⟨s.flash, s.rtc, .program s.own.cursor s.own.nextWord⟩ : Mark)],
      Neutral m.obs := by
    intro m hm
    rw [List.mem_singleton.1 hm]
    simp [Neutral]
  refine ⟨fun hk => ?_, fun hs i hi hv => ?_⟩
  · exact (hh.below ((Neutral.kept hneutral).1 hk)).congr fun i hi => programming_below hi
  · have hfailed : EraseFailed (s.programming w).log ↔ EraseFailed s.log :=
      Neutral.eraseFailed hneutral
    rw [recorded_congr (hnew hs), hfailed]
    exact hh.mirror hs i hi hv

/-- The invariant, after a word that does not complete the record. -/
theorem Recorded.programming (hi : Recorded B A s) (hh : Held B A s) :
    Recorded B A (s.programming w) := by
  have hsilent : ∀ m ∈ [(⟨s.flash, s.rtc, .program s.own.cursor s.own.nextWord⟩ : Mark)],
      Silent m.obs := by
    intro m hm
    rw [List.mem_singleton.1 hm]
    simp [Silent, Neutral]
  have hneutral := fun m hm => (hsilent m hm).1
  refine ⟨fun ha hp => .inr (hi.marked ha hp), fun hq => .inr (hi.queued hq), fun hk => ?_,
    fun ha => Neutral.erases hneutral (hi.erases ha), fun hs => Silent.told hsilent (hi.told hs)⟩
  exact ((hh.below ((Neutral.kept hneutral).1 hk)).congr fun i hi => programming_below hi).whole

/-- The invariant, after the last word: the record is one the scanner finds. -/
theorem Recorded.complete (hi : Recorded B A s) (hh : Held B A s)
    (hw : Writing B (s.programming w).flash s.own s.own.pendingWords) :
    Recorded B A ((s.programming w).note .committed) := by
  have hprog := hi.programming (w := w) hh
  refine ⟨fun ha hp => .inr (hprog.marked ha hp), fun hq => .inr (hprog.queued hq), fun _ => ?_,
    fun ha => ⟨fun _ ho => absurd ho (by simp), hprog.erases ha⟩, fun hs => ⟨⟨?_, ?_, ?_⟩, hprog.told hs⟩⟩
  · obtain ⟨v, n, hwalk⟩ := hw.walk
    have hholds := (hw.words ▸ hw.done).holds
    have hvalid := Walk.valid hwalk (Log.parseAt_written hw.encoded hholds hw.fits)
    exact ⟨_, _, _, hvalid, hvalid.le⟩
  · exact fun i packet ho => absurd ho (by simp)
  · exact fun values ho => absurd ho (by simp)
  · exact fun packet applied ho => absurd ho (by simp)

/-! ## The commit -/

/-- After a word: the commit in progress, held as long as it is not complete. -/
structure Stepped (B : Build) (A : Premises) (s : Store) (k : Nat) : Prop where
  writing : Writing B s.flash s.own k
  le : k ≤ s.own.pendingWords
  active : s.own.pendingActive = true
  undecided : s.shared.lastCommit ≠ .unchanged
  held : k < s.own.pendingWords → Held B A s

theorem stepped_stable {k : Store → Nat} (hk : ∀ {s s' : Store}, s'.own = s.own → k s' = k s) :
    (recordGuard B A).Stable fun s => Stepped B A s (k s) := by
  intro s s' h hr hi
  have hheld : (recordGuard B A).Stable (Held B A) := held_stable
  rw [hk hr.own]
  refine ⟨by rw [hr.flash, hr.own]; exact h.writing, by rw [hr.own]; exact h.le,
    by rw [hr.own]; exact h.active, fun hc => h.undecided (hr.commit hc), fun hlt => hheld s s' (h.held ?_) hr hi⟩
  rwa [hr.own] at hlt

/-- **One word of a commit.** -/
theorem programWord_triple : (recordGuard B A).Triple
    (fun s => (Rest B A s ∧ ¬Published s) ∧ s.own.pendingActive = true) (programWord B)
    (fun ok s => if ok then Stepped B A s (s.own.pendingPos + 1) else Held B A s) := by
  have hstable : (recordGuard B A).Stable fun s =>
      (Rest B A s ∧ ¬Published s) ∧ s.own.pendingActive = true :=
    (rest_stable.and (own_stable fun _ _ o =>
      ¬(o.resetArmed = true ∨ o.resetBlocked = true))).and
      (own_stable fun _ _ o => o.pendingActive = true)
  refine .call hstable fun w s hw hi h => ?_
  obtain ⟨⟨⟨hr, hsettled⟩, hpub⟩, hact⟩ := h
  have hundecided : s.shared.lastCommit ≠ .unchanged := fun hc =>
    absurd hact (by rw [(hsettled hc).1]; simp)
  unfold programNext
  rcases hr.append with hp | hn | happ
  · exact absurd hp hpub
  · rw [if_pos (by unfold Own.cursor; omega)]
    exact ⟨hi, hr.held⟩
  obtain ⟨hwriting, hpos⟩ := happ.writing hact
  have hfits := hwriting.fits
  have hwords := hwriting.words
  rw [if_neg (by unfold Own.cursor; omega)]
  cases hok : w.programOk with
  | false =>
    refine ⟨hi.programming hr.held, hr.held.programming fun hs => ?_⟩
    exact hwriting.unseen hpos (.inr ⟨hok, hw hs hok⟩)
  | true =>
    have hstep := hwriting.step hpos hok
    by_cases hlast : s.own.pendingPos + 1 = s.own.pendingWords
    · rw [if_pos rfl, if_pos hlast]
      refine ⟨hi.complete hr.held (hlast ▸ hstep), hstep, hpos, hact, hundecided, fun hlt => ?_⟩
      exact absurd hlast (Nat.ne_of_lt hlt)
    · rw [if_pos rfl, if_neg hlast]
      refine ⟨hi.programming hr.held, hstep, hpos, hact, hundecided, fun hlt =>
        hr.held.programming fun _ => ?_⟩
      exact hwriting.unseen hpos (.inl ⟨hok, hlt⟩)

/-- **The mirror catches up** with the record that has just been completed. -/
theorem finishCommit_triple : (recordGuard B A).Triple
    (fun s => Writing B s.flash s.own s.own.pendingWords) (finishCommit B)
    (fun _ => Rest B A) := by
  unfold finishCommit
  refine .bind (Q := fun _ => Ready B A) (.modify (own_stable fun flash _ o =>
    Writing B flash o o.pendingWords) fun s hi h => ⟨?_, ?_⟩) fun _ => ?_
  · exact hi.quiet ⟨rfl, rfl, fun h => ⟨h, rfl⟩, fun h => h, [], rfl, by simp⟩
  · obtain ⟨v, n, hwalk⟩ := h.walk
    have hholds := (h.words ▸ h.done).holds
    have hvalid := Walk.valid hwalk (Log.parseAt_written h.encoded hholds h.fits)
    have herased := h.erased
    rw [← h.words] at hvalid herased
    refine ⟨⟨fun _ => ⟨_, _, _, hvalid, Nat.le_refl _⟩, fun _ i hi hv => .inl ?_⟩,
      .inr (.inr ⟨⟨some s.own.nextFree, n + 1, ?_⟩, ?_⟩)⟩
    · refine (markStored_storedValue hi hv).trans ?_
      unfold recorded
      rw [show (Store.setOwn s _).flash = s.flash from rfl,
        Log.newest_written hwalk h.encoded hholds h.fits h.erased]
      exact (recordValue_persisted hi hv).symm
    · exact hvalid
    · exact herased
  · exact .bind (decide_rest (c := fun _ => .written) fun _ => by simp) fun _ =>
      idle_rest (idle_setShared (fun _ h => ⟨h, rfl⟩) (fun _ h => h) fun _ => rfl)

theorem stepCommit_triple : (recordGuard B A).Triple
    (fun s => (Rest B A s ∧ ¬Published s) ∧ s.own.pendingActive = true) (stepCommit B)
    (fun _ => Rest B A) := by
  unfold stepCommit
  refine .bind programWord_triple fun ok => .ite (fun hok => ?_) fun hok => ?_
  · subst hok
    refine .bind (Q := fun _ s => Stepped B A s s.own.pendingPos)
      (.modify (stepped_stable fun h => by rw [h]) fun s hi h => ⟨?_, ?_⟩) fun _ => ?_
    · exact hi.quiet ⟨rfl, rfl, fun h => ⟨h, rfl⟩, fun h => h, [], rfl, by simp⟩
    · exact ⟨⟨h.writing.walk, h.writing.encoded, h.writing.words, h.writing.fits, h.writing.done,
        h.writing.erased⟩, h.le, h.active, h.undecided, fun hlt =>
        (h.held hlt).same rfl ⟨[], rfl, by simp⟩ rfl rfl⟩
    refine .bind (.get (stepped_stable fun h => by rw [h])) fun more => .ite (fun hmore => ?_)
      fun hmore => ?_
    · refine .ret fun s _ h => ?_
      have hlt : s.own.pendingPos < s.own.pendingWords := by simpa using h.2.trans hmore
      refine ⟨⟨h.1.held hlt, .inr (.inr ?_)⟩, .of_ne h.1.undecided⟩
      unfold Appendable
      rw [if_pos h.1.active]
      exact ⟨h.1.writing, hlt⟩
    · refine finishCommit_triple.conseq (fun s _ h => ?_) fun _ _ _ h => h
      have hle := h.1.le
      have hnot : ¬s.own.pendingPos < s.own.pendingWords := by
        rw [← h.2] at hmore
        simpa using hmore
      have heq : s.own.pendingPos = s.own.pendingWords := by omega
      exact heq ▸ h.1.writing
  · refine .bind (Q := fun _ => Ready B A) ?_ fun _ => reportCommit_rest fun _ => by simp
    simp only [hok]
    refine .modify held_stable fun s hi h => ⟨?_, ⟨fun hk => (h.below hk).whole, h.mirror⟩,
      .inr (.inl (Nat.le_refl _))⟩
    exact hi.quiet ⟨rfl, rfl, fun h => ⟨h, rfl⟩, fun h => h, [], rfl, by simp⟩

end Params
end Mowgli
