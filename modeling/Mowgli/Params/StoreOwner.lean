import Mowgli.Params.StoreRely

/-!
# StoreOwner — one request owns the reset

A reset request is accepted by the interrupt, taken by the service routine, written to
the backup registers one register at a time, and only then published as armed or
blocked. **The queued flag stays set until it is**, so at every point in between some
flag refuses every other id.

`Owner` is the invariant, true between any two statements: an id that was accepted in
this boot is `resetRequestId`, and it is queued, armed or blocked. `Resting` is what the
service routine leaves and finds again: a taken request is published, and a queued one
has not been taken.

`reset_has_one_owner` reads the invariant off for every run.
-/

namespace Mowgli
namespace Params

open Trace

/-! ## Sentences about this boot -/

/-- `fw_params_request_reset(id)` has returned 1 in this boot. -/
def Accepted (id : Word) (log : List Mark) : Prop :=
  SinceBoot (fun m => m.obs = .resetCall id true) log

/-- The service routine has taken a request in this boot. -/
def Consumed (log : List Mark) : Prop :=
  SinceBoot (fun m => ∃ id, m.obs = .consumed id) log

/-- A call with another id than the one accepted before it returns 0. -/
def Exclusive (m : Mark) (past : List Mark) : Prop :=
  ∀ id accepted, m.obs = .resetCall id accepted →
    ∀ owner, Accepted owner past → id ≠ owner → accepted = false

/-- No word is programmed after a request was taken. -/
def Unprogrammed (m : Mark) (past : List Mark) : Prop :=
  ∀ at' value, m.obs = .program at' value → ¬Consumed past

/-! ## The invariant -/

structure Owner (s : Store) : Prop where
  exclusive : Always Exclusive s.log
  unprogrammed : Always Unprogrammed s.log
  owner : ∀ id, Accepted id s.log → s.shared.resetRequestId = id ∧
    (s.shared.resetRequested = true ∨ s.own.resetArmed = true ∨ s.own.resetBlocked = true)
  armed : s.own.resetArmed = true → s.rtc.lastRequestId = s.shared.resetRequestId

structure Resting (s : Store) : Prop where
  published : Consumed s.log → Published s
  queued : s.shared.resetRequested = true → ¬Published s

abbrev ownerGuard : Guard Answer Store := guard Owner fun _ => True

/-! ## Statements that leave the reset alone -/

/-- A statement that leaves the reset alone and observes nothing but `p`. -/
structure Calm (p : Obs → Prop) (s s' : Store) : Prop where
  usbUp : s'.usbUp = s.usbUp
  rtc : s'.rtc = s.rtc
  armed : s'.own.resetArmed = s.own.resetArmed
  blocked : s'.own.resetBlocked = s.own.resetBlocked
  requested : s'.shared.resetRequested = s.shared.resetRequested
  requestId : s'.shared.resetRequestId = s.shared.resetRequestId
  log : ∃ later, s'.log = later ++ s.log ∧ ∀ m ∈ later, p m.obs

/-- Neither a boot, nor a step of a reset. -/
def Plain (o : Obs) : Prop :=
  o ≠ .booted ∧ (∀ id, o ≠ .consumed id) ∧ ∀ id accepted, o ≠ .resetCall id accepted

/-- And not a programmed word either. -/
def PlainReport (o : Obs) : Prop := Plain o ∧ ∀ at' value, o ≠ .program at' value

variable {s s' : Store} {later log : List Mark}

theorem consumed_append (h : ∀ m ∈ later, m.obs ≠ .booted ∧ ∀ id, m.obs ≠ .consumed id) :
    Consumed (later ++ log) ↔ Consumed log :=
  Since.append_iff fun m hm => ⟨(h m hm).1, fun _ ⟨id, hc⟩ => (h m hm).2 id hc⟩

variable {id : Word} {p : Obs → Prop} {m : Task Unit}

theorem accepted_append (h : ∀ m ∈ later, m.obs ≠ .booted ∧ m.obs ≠ .resetCall id true) :
    Accepted id (later ++ log) ↔ Accepted id log :=
  Since.append_iff fun m hm => ⟨(h m hm).1, fun _ hc => (h m hm).2 hc⟩

theorem Plain.consumed (h : ∀ m ∈ later, Plain m.obs) : Consumed (later ++ log) ↔ Consumed log :=
  consumed_append fun m hm => ⟨(h m hm).1, (h m hm).2.1⟩

theorem Plain.accepted (h : ∀ m ∈ later, Plain m.obs) :
    Accepted id (later ++ log) ↔ Accepted id log :=
  accepted_append fun m hm => ⟨(h m hm).1, (h m hm).2.2 id true⟩

/-- A calm statement keeps the invariant; a programmed word needs that no request was
    taken. -/
theorem Owner.calm (hp : ∀ o, p o → Plain o) (hi : Owner s) (h : Calm p s s')
    (hprog : ∀ at' value, p (.program at' value) → ¬Consumed s.log) : Owner s' := by
  obtain ⟨later, hlog, hlater⟩ := h.log
  have hplain : ∀ m ∈ later, Plain m.obs := fun m hm => hp _ (hlater m hm)
  refine ⟨?_, ?_, fun id hacc => ?_, fun harm => ?_⟩
  · rw [hlog]
    refine hi.exclusive.append fun m hm past _ id accepted hobs => ?_
    exact absurd hobs ((hplain m hm).2.2 id accepted)
  · rw [hlog]
    refine hi.unprogrammed.append fun m hm past hpast at' value hobs => ?_
    rw [Plain.consumed fun b hb => hplain b (hpast b hb)]
    exact hprog at' value (hobs ▸ hlater m hm)
  · rw [hlog, Plain.accepted hplain] at hacc
    rw [h.requestId, h.requested, h.armed, h.blocked]
    exact hi.owner id hacc
  · rw [h.rtc, h.requestId]
    exact hi.armed (h.armed ▸ harm)

theorem Resting.calm (hp : ∀ o, p o → Plain o) (hr : Resting s) (h : Calm p s s') : Resting s' := by
  obtain ⟨later, hlog, hlater⟩ := h.log
  have hpub : Published s' ↔ Published s := by unfold Published; rw [h.armed, h.blocked]
  refine ⟨fun hc => ?_, fun hq => ?_⟩
  · rw [hlog, Plain.consumed fun m hm => hp _ (hlater m hm)] at hc
    exact hpub.2 (hr.published hc)
  · rw [hpub]
    exact hr.queued (h.requested ▸ hq)

/-! ## The interrupt -/

theorem IsCall.consumed (h : ∀ m ∈ later, m.obs.IsCall) : Consumed (later ++ log) ↔ Consumed log :=
  consumed_append fun m hm => by
    rcases h m hm with ⟨id, accepted, hobs⟩ | ⟨i, value, hobs⟩
    · exact ⟨by simp [hobs], by simp [hobs]⟩
    · exact ⟨by simp [hobs], by simp [hobs]⟩

theorem resting_stable : ownerGuard.Stable Resting := by
  intro s s' hr h _
  obtain ⟨calls, hlog, hcalls⟩ := h.log
  refine ⟨fun hc => ?_, fun hq hpub => ?_⟩
  · rw [hlog, IsCall.consumed hcalls] at hc
    exact h.published.2 (hr.published hc)
  · rw [h.published] at hpub
    exact hr.queued ((h.owned hpub).1 ▸ hq) hpub

variable {rtc : Reset.Backup}

theorem accepted_call {owner : Word} {flash : Flash} {accepted : Bool} :
    Accepted owner (⟨flash, rtc, .resetCall id accepted⟩ :: log) ↔
      (id = owner ∧ accepted = true) ∨ Accepted owner log := by
  simp [Accepted, SinceBoot]

/-- **The interrupt keeps the owner**: a call is refused, repeats the owner, or finds no
    owner to replace. -/
theorem Owner.requestReset (hi : Owner s) :
    Owner (s.called id (requestReset id s.own s.shared)) := by
  have hcases := requestReset_cases id s.own s.shared
  generalize Params.requestReset id s.own s.shared = r at hcases
  refine ⟨⟨fun id' accepted hobs owner hacc hne => ?_, hi.exclusive⟩,
    ⟨fun _ _ hobs => absurd hobs (by simp), hi.unprogrammed⟩, fun owner hacc => ?_,
    fun harm => ?_⟩
  · simp only [Obs.resetCall.injEq] at hobs
    obtain ⟨rfl, rfl⟩ := hobs
    obtain ⟨hown, hflag⟩ := hi.owner owner hacc
    rcases hcases with ⟨hf, _⟩ | ⟨_, hid, _⟩ | ⟨_, ha, hb, hq, _⟩
    · exact hf
    · exact absurd (hid.symm.trans hown) hne
    · simp [ha, hb, hq] at hflag
  · rcases accepted_call.1 hacc with ⟨rfl, hok⟩ | hacc
    · rcases hcases with ⟨hf, _⟩ | ⟨_, hid, hflag, hq, hid'⟩ | ⟨_, _, _, _, hs⟩
      · exact absurd hok (by simp [hf])
      · refine ⟨hid'.trans hid, ?_⟩
        rcases hflag with ha | hr
        · exact .inr (.inl ha)
        · exact .inl (hq.trans hr)
      · exact ⟨congrArg Shared.resetRequestId hs, .inl (congrArg Shared.resetRequested hs)⟩
    · obtain ⟨hown, hflag⟩ := hi.owner owner hacc
      rcases hcases with ⟨_, hs⟩ | ⟨_, _, _, hq, hid'⟩ | ⟨_, ha, hb, hq, _⟩
      · exact ⟨(congrArg Shared.resetRequestId hs).trans hown, by
          rw [← congrArg Shared.resetRequested hs] at hflag; exact hflag⟩
      · exact ⟨hid'.trans hown, by rw [← hq] at hflag; exact hflag⟩
      · simp [ha, hb, hq] at hflag
  · rcases hcases with ⟨_, hs⟩ | ⟨_, _, _, _, hid'⟩ | ⟨_, ha, _⟩
    · exact (hi.armed harm).trans (congrArg Shared.resetRequestId hs).symm
    · exact (hi.armed harm).trans hid'.symm
    · exact absurd harm (by simp [Store.called, Store.note, ha])

theorem Owner.irq {B : Build} {i : Irq} (hi : Owner s) : Owner (irq B i s) := by
  rcases irq_cases B i s with h | ⟨_, h⟩ | ⟨id, h, _⟩
  · rw [h]; exact hi
  · obtain ⟨calls, hshape, hcalls⟩ := h.shape
    refine hi.calm (p := fun o => ∃ i value, o = .applied i value)
      (fun _ ⟨_, _, ho⟩ => by simp [Plain, ho]) ?_ (fun _ _ ⟨_, _, ho⟩ => absurd ho (by simp))
    refine ⟨?_, ?_, ?_, ?_, h.requested, h.requestId, calls, ?_, hcalls⟩ <;> rw [hshape]
  · rw [h]; exact hi.requestReset

/-! ## The calm statements -/

section Calm

variable {p : Obs → Prop}

theorem Calm.refl (s : Store) : Calm p s s := ⟨rfl, rfl, rfl, rfl, rfl, rfl, [], rfl, by simp⟩

theorem Calm.trans {a b c : Store} (hab : Calm p a b) (hbc : Calm p b c) : Calm p a c := by
  obtain ⟨later, hlog, hlater⟩ := hab.log
  obtain ⟨later', hlog', hlater'⟩ := hbc.log
  refine ⟨hbc.usbUp.trans hab.usbUp, hbc.rtc.trans hab.rtc, hbc.armed.trans hab.armed, hbc.blocked.trans hab.blocked,
    hbc.requested.trans hab.requested, hbc.requestId.trans hab.requestId, later' ++ later,
    by rw [hlog', hlog, List.append_assoc], fun m hm => ?_⟩
  rcases List.mem_append.1 hm with hm | hm
  · exact hlater' m hm
  · exact hlater m hm

theorem Calm.note {s : Store} {obs : Obs} (h : p obs) : Calm p s (s.note obs) :=
  ⟨rfl, rfl, rfl, rfl, rfl, rfl, [_], rfl, fun m hm => by rw [List.mem_singleton.1 hm]; exact h⟩

theorem calm_get {α : Type} {r : Store → α} : (Routine.get r : Task α).Does (Calm p) :=
  .get Calm.refl

theorem calm_setOwn {f : Own → Own} (ha : ∀ o, (f o).resetArmed = o.resetArmed)
    (hb : ∀ o, (f o).resetBlocked = o.resetBlocked) : (setOwn f).Does (Calm p) :=
  .modify fun s => ⟨rfl, rfl, ha s.own, hb s.own, rfl, rfl, [], rfl, by simp⟩

theorem calm_setShared {f : Shared → Shared}
    (hq : ∀ h, (f h).resetRequested = h.resetRequested)
    (hid : ∀ h, (f h).resetRequestId = h.resetRequestId) : (setShared f).Does (Calm p) :=
  .modify fun s => ⟨rfl, rfl, rfl, rfl, hq s.shared, hid s.shared, [], rfl, by simp⟩

theorem calm_reportCommit {c : Own → Commit} : (reportCommit c).Does (Calm p) :=
  .bind (.modify fun _ => ⟨rfl, rfl, rfl, rfl, rfl, rfl, [], rfl, by simp⟩)
    fun _ => calm_setShared (fun _ => rfl) (fun _ => rfl)

theorem calm_armedOrBlocked : armedOrBlocked.Does (Calm p) :=
  .bind calm_get fun _ => .ite .ret calm_get

variable {B : Build}

theorem calm_beginCommit {snapshot : Nat → Binary32.Bits} {record : List Word} :
    (beginCommit B snapshot record).Does (Calm p) := by
  refine .bind (calm_setOwn (fun _ => rfl) (fun _ => rfl)) fun _ => .bind calm_get fun _ => ?_
  refine .ite calm_reportCommit (.bind (calm_setOwn (fun _ => rfl) (fun _ => rfl)) fun _ => ?_)
  exact calm_setShared (fun _ => rfl) (fun _ => rfl)

theorem calm_startCommit : (startCommit B).Does (Calm PlainReport) := by
  refine .bind calm_armedOrBlocked fun _ => .ite calm_reportCommit ?_
  refine .bind (.call fun _ s => .note (by simp [PlainReport, Plain])) fun snapshot => ?_
  refine .bind calm_get fun _ => .ite (.bind (.modify fun s => ?_) fun _ => ?_) ?_
  · exact ⟨rfl, rfl, rfl, rfl, rfl, rfl, [_], rfl, by simp [PlainReport, Plain]⟩
  · exact calm_setShared (fun _ => rfl) (fun _ => rfl)
  · cases B.table.encode snapshot with
    | none => exact calm_reportCommit
    | some record => exact calm_beginCommit

theorem calm_programWord : (programWord B).Does (Calm Plain) := by
  refine .call fun w s => ?_
  have hprog : Calm Plain s (s.programming w) :=
    ⟨rfl, rfl, rfl, rfl, rfl, rfl, [_], rfl, fun m hm => by
      rw [List.mem_singleton.1 hm]; simp [Plain]⟩
  unfold programNext
  split_ifs with hin hok hlast
  · exact Calm.refl s
  · exact hprog.trans (.note (by simp [Plain]))
  · exact hprog
  · exact hprog

theorem calm_stepCommit : (stepCommit B).Does (Calm Plain) := by
  refine .bind calm_programWord fun _ => .ite ?_ ?_
  · refine .bind (calm_setOwn (fun _ => rfl) (fun _ => rfl)) fun _ => .bind calm_get fun _ => ?_
    refine .ite .ret (.bind (calm_setOwn (fun _ => rfl) (fun _ => rfl)) fun _ => ?_)
    refine .bind (calm_setShared (fun _ => rfl) (fun _ => rfl)) fun _ => ?_
    exact calm_setShared (fun _ => rfl) (fun _ => rfl)
  · exact .bind (calm_setOwn (fun _ => rfl) (fun _ => rfl)) fun _ => calm_reportCommit

theorem calm_refuseCommit : refuseCommit.Does (Calm p) :=
  .bind calm_get fun _ => .ite
    (.bind (calm_setShared (fun _ => rfl) (fun _ => rfl)) fun _ => calm_reportCommit) .ret

theorem calm_serviceStatus {now : Word} : (serviceStatus now).Does (Calm p) :=
  .bind calm_get fun _ => .ite
    (.bind (calm_setOwn (fun _ => rfl) (fun _ => rfl)) fun _ =>
      calm_setShared (fun _ => rfl) (fun _ => rfl)) .ret

theorem calm_sendValue {index : Nat} : (sendValue B index).Does (Calm PlainReport) := by
  refine .bind calm_get fun _ => .bind (.call fun _ s => .note (by simp [PlainReport, Plain])) ?_
  exact fun _ => .modify fun s => .note (by simp [PlainReport, Plain])

theorem calm_sendOneReport : (sendOneReport B).Does (Calm PlainReport) := by
  refine .bind calm_get fun _ => .ite (.bind (.call fun _ s => ?_) fun _ => ?_) ?_
  · exact ⟨rfl, rfl, rfl, rfl, rfl, rfl, [], rfl, by simp⟩
  · exact .modify fun s => .note (by simp [PlainReport, Plain])
  refine .bind (.call fun _ s => ⟨rfl, rfl, rfl, rfl, rfl, rfl, [], rfl, by simp⟩) fun bit => ?_
  refine .ite (.bind calm_get fun _ => .ite ?_ .ret) (.ite calm_sendValue .ret)
  refine .bind (calm_setShared (fun _ => rfl) (fun _ => rfl)) fun _ => ?_
  exact .modify fun s => .note (by simp [PlainReport, Plain])

theorem calm_serviceReport {now : Word} : (serviceReport B now).Does (Calm PlainReport) :=
  .bind calm_get fun _ => .ite
    (.bind (calm_setOwn (fun _ => rfl) (fun _ => rfl)) fun _ => calm_sendOneReport) .ret

end Calm

/-! ## The service routine -/

variable {B : Build}

/-- A routine that leaves the reset alone comes back to rest. -/
theorem calm_triple (hm : m.Does (Calm PlainReport)) :
    ownerGuard.Triple Resting m (fun _ => Resting) :=
  .does hm resting_stable fun _ _ hi hr h =>
    ⟨hi.calm (fun _ h => h.1) h fun _ _ hp => absurd rfl (hp.2 _ _),
      hr.calm (fun _ h => h.1) h⟩

theorem calm_programs (hm : m.Does (Calm Plain)) :
    ownerGuard.Triple (fun s => Resting s ∧ ¬Published s) m (fun _ => Resting) := by
  have hstable : ownerGuard.Stable fun s => Resting s ∧ ¬Published s :=
    resting_stable.and (own_stable fun _ _ o => ¬(o.resetArmed = true ∨ o.resetBlocked = true))
  refine (Guard.Triple.does hm hstable fun s s' hi hr h => ?_).conseq (fun _ _ h => h)
    fun _ _ _ h => h.1
  refine ⟨hi.calm (fun _ h => h) h fun _ _ _ hc => hr.2 (hr.1.published hc),
    hr.1.calm (fun _ h => h) h, ?_⟩
  unfold Published
  rw [h.armed, h.blocked]
  exact hr.2

theorem serviceCommit_triple : ownerGuard.Triple Resting (serviceCommit B) (fun _ => Resting) := by
  refine .bind (armedOrBlocked_triple resting_stable) fun r => .ite (fun _ => ?_) fun hr => ?_
  · refine .bind ((calm_triple calm_refuseCommit).conseq (fun _ _ h => h.1) fun _ _ _ h => h) ?_
    exact fun _ => calm_triple (calm_setOwn (fun _ => rfl) (fun _ => rfl))
  · refine .bind (.get (resting_stable.and iff_published_stable)) fun active => .ite (fun _ => ?_) fun _ => ?_
    · refine (calm_programs calm_stepCommit).conseq (fun s _ h => ⟨h.1.1, ?_⟩) fun _ _ _ h => h
      exact fun hp => hr (h.1.2.2 hp)
    · refine (calm_triple ?_).conseq (fun _ _ h => h.1.1) fun _ _ _ h => h
      refine .bind calm_get fun _ => .ite ?_ .ret
      exact .bind (calm_setShared (fun _ => rfl) (fun _ => rfl)) fun _ => calm_startCommit

/-! ## Taking a request -/

/-- The request `id` is queued. -/
def Queued (id : Word) (s : Store) : Prop :=
  s.shared.resetRequested = true ∧ s.shared.resetRequestId = id

/-- The request `id` has been taken and is not published yet. -/
def Taking (id : Word) (s : Store) : Prop := Queued id s ∧ ¬Published s

theorem queued_stable : ownerGuard.Stable (Queued id) := fun _ _ h hr _ =>
  ⟨(hr.queued h.1).1, (hr.queued h.1).2.trans h.2⟩

theorem taking_stable : ownerGuard.Stable (Taking id) :=
  queued_stable.and (own_stable fun _ _ o => ¬(o.resetArmed = true ∨ o.resetBlocked = true))

theorem Calm.queued (h : Calm p s s') (hq : Queued id s) :
    Queued id s' := ⟨h.requested.trans hq.1, h.requestId.trans hq.2⟩

theorem Calm.published (h : Calm p s s') : Published s' ↔ Published s := by
  unfold Published; rw [h.armed, h.blocked]

theorem calm_taking (hm : m.Does (Calm PlainReport)) :
    ownerGuard.Triple (Taking id) m (fun _ => Taking id) :=
  .does hm taking_stable fun _ _ hi hs h =>
    ⟨hi.calm (fun _ h => h.1) h fun _ _ hp => absurd rfl (hp.2 _ _), h.queued hs.1,
      fun hp => hs.2 (h.published.1 hp)⟩

theorem calm_published (hm : m.Does (Calm PlainReport)) :
    ownerGuard.Triple (fun s => Queued id s ∧ Published s) m
      (fun _ s => Queued id s ∧ Published s) :=
  .does hm (queued_stable.and published_stable) fun _ _ hi hs h =>
    ⟨hi.calm (fun _ h => h.1) h fun _ _ hp => absurd rfl (hp.2 _ _), h.queued hs.1,
      h.published.2 hs.2⟩

/-- Publishing a flag of a queued request whose id the registers hold, if it is armed. -/
theorem Owner.publish {o : Own} (hi : Owner s) (hq : Queued id s)
    (harm : o.resetArmed = true → s.rtc.lastRequestId = id) : Owner { s with own := o } :=
  ⟨hi.exclusive, hi.unprogrammed, fun id' hacc => ⟨(hi.owner id' hacc).1, .inl hq.1⟩,
    fun h => (harm h).trans hq.2.symm⟩

/-- The registers are written one at a time; nothing is armed in RAM meanwhile. -/
theorem armRtc_triple :
    ownerGuard.Triple (fun s => Taking id s ∧ rtcPart.get s = rtc) (onRtc (Reset.arm id))
      (fun ok s => Taking id s ∧ (ok = true → (rtcPart.get s).lastRequestId = id)) := by
  have hpart : ∀ {s s' : Store}, Rely s s' → rtcPart.get s' = rtcPart.get s := fun hr => hr.rtc
  refine Guard.Triple.within Reset.arm_triple hpart taking_stable (fun _ _ h => h) ?_ ?_
  · intro t s hi hs _
    exact ⟨hi.exclusive, hi.unprogrammed, hi.owner, fun h => absurd (.inl h) hs.2⟩
  · exact fun s _ _ h _ => .inl h

theorem armReset_triple : ownerGuard.Triple (Taking id) (armReset id)
    (fun _ s => Queued id s ∧ Published s) := by
  have hdone : ∀ {c : Commit}, ownerGuard.Triple (fun s => Queued id s ∧ Published s)
      (do setOwn fun o => { o with lastResetRequestId := id }
          setShared fun h => { h with lastCommit := c })
      (fun _ s => Queued id s ∧ Published s) := fun {c} =>
    calm_published (.bind (calm_setOwn (fun _ => rfl) (fun _ => rfl)) fun _ =>
      calm_setShared (fun _ => rfl) (fun _ => rfl))
  refine .bind (Q := fun ok s => Taking id s ∧ (ok = true → s.rtc.lastRequestId = id)) ?_
    fun ok => .ite (fun hok => ?_) fun _ => ?_
  · exact fun s hi hs => armRtc_triple s hi ⟨hs, rfl⟩
  · refine .bind (.modify ?_ fun s hi h => ?_) fun _ => hdone
    · exact taking_stable.and (own_stable fun _ rtc _ => ok = true → rtc.lastRequestId = id)
    · exact ⟨hi.publish h.1.1 fun _ => h.2 hok, h.1.1, .inl rfl⟩
  · refine .bind (Q := fun _ s => Queued id s ∧ Published s ∧ s.own.resetArmed = false)
      (.modify ?_ fun s hi h => ?_) fun _ => ?_
    · exact taking_stable.and (own_stable fun _ rtc _ => ok = true → rtc.lastRequestId = id)
    · have harm : s.own.resetArmed = false := Bool.eq_false_iff.2 fun ha => h.1.2 (.inl ha)
      exact ⟨hi.publish h.1.1 fun ha => absurd ha (by simp [harm]), h.1.1, .inr rfl, harm⟩
    · have hstable : ownerGuard.Stable fun s =>
          Queued id s ∧ Published s ∧ s.own.resetArmed = false :=
        queued_stable.and (own_stable fun _ _ o =>
          (o.resetArmed = true ∨ o.resetBlocked = true) ∧ o.resetArmed = false)
      refine .bind (.get hstable) fun pending => .ite (fun hpend => ?_) fun _ => ?_
      · refine .bind (.modify ?_ fun s hi h => ?_) fun _ => hdone
        · exact hstable.and (own_stable fun _ rtc _ =>
            (rtc.isPending && rtc.lastRequestId == id) = pending)
        · have hid : s.rtc.lastRequestId = id := by
            have := h.2.trans hpend
            simpa using (Bool.and_eq_true_iff.1 this).2
          exact ⟨hi.publish h.1.1 fun _ => hid, h.1.1, .inl rfl⟩
      · have herror : ownerGuard.Triple (fun s => Queued id s ∧ Published s)
            (setShared fun h => { h with lastCommit := .error })
            (fun _ s => Queued id s ∧ Published s) :=
          calm_published (calm_setShared (fun _ => rfl) (fun _ => rfl))
        exact herror.conseq (fun s _ h => ⟨h.1.1, h.1.2.1⟩) fun _ _ _ h => h

theorem takeReset_triple {now : Word} :
    ownerGuard.Triple (fun s => s.shared.resetRequested = true ∧ ¬Published s) (takeReset now)
      (fun _ => Resting) := by
  have hstable : ownerGuard.Stable fun s => s.shared.resetRequested = true ∧ ¬Published s :=
    Guard.Stable.and (fun _ _ h hr _ => (hr.queued h).1)
      (own_stable fun _ _ o => ¬(o.resetArmed = true ∨ o.resetBlocked = true))
  refine .bind (Q := Taking) (.call hstable fun _ s _ hi h => ⟨?_, ⟨h.1, rfl⟩, h.2⟩) fun id => ?_
  · refine ⟨⟨fun _ _ hobs => absurd hobs (by simp), hi.exclusive⟩,
      ⟨fun _ _ hobs => absurd hobs (by simp), hi.unprogrammed⟩, fun owner hacc => ?_, hi.armed⟩
    rcases hacc with hacc | ⟨_, hacc⟩
    · exact absurd hacc (by simp)
    · exact hi.owner owner hacc
  refine .bind (calm_taking (calm_setOwn (fun _ => rfl) (fun _ => rfl))) fun _ => ?_
  refine .bind (calm_taking (calm_setShared (fun _ => rfl) (fun _ => rfl))) fun _ => ?_
  refine .bind armReset_triple fun _ => .bind (calm_published (calm_setOwn ?_ ?_)) fun _ => ?_
  · intro o; split_ifs <;> rfl
  · intro o; split_ifs <;> rfl
  refine .bind (Q := fun _ => Resting) (.modify (queued_stable.and published_stable)
    fun s hi h => ⟨?_, fun _ => h.2, fun hq => absurd hq (by simp [Store.setShared])⟩) fun _ => ?_
  · exact ⟨hi.exclusive, hi.unprogrammed,
      fun owner hacc => ⟨(hi.owner owner hacc).1, .inr h.2⟩, hi.armed⟩
  · exact calm_triple (calm_setShared (fun _ => rfl) (fun _ => rfl))

theorem service_triple {now : Word} :
    ownerGuard.Triple Resting (service B now) (fun _ => Resting) := by
  refine .bind ?_ fun _ => .bind serviceCommit_triple fun _ =>
    .bind (calm_triple calm_serviceStatus) fun _ => calm_triple calm_serviceReport
  refine .bind (.get resting_stable) fun requested => .ite (fun hreq => ?_) fun _ => ?_
  · refine takeReset_triple.conseq (fun s _ h => ?_) fun _ _ _ h => h
    have hq : s.shared.resetRequested = true := h.2.trans hreq
    exact ⟨hq, h.1.queued hq⟩
  · exact .ret fun _ _ h => h.1

/-! ## Boot -/

/-- Before USB is up: nothing has been accepted or taken, nothing is queued, and `P`. -/
structure Booting (P : Store → Prop) (s : Store) : Prop where
  down : s.usbUp = false
  unaccepted : ∀ id, ¬Accepted id s.log
  unconsumed : ¬Consumed s.log
  unqueued : s.shared.resetRequested = false
  holds : P s

variable {P P' : Store → Prop}

theorem booting_stable : ownerGuard.Stable (Booting P) := fun _ _ h hr _ =>
  (hr.down h.down).symm ▸ h

theorem Booting.weaken (h : Booting P s) (hp : P s → P' s) : Booting P' s :=
  ⟨h.down, h.unaccepted, h.unconsumed, h.unqueued, hp h.holds⟩

/-- A statement of the boot: it keeps the log but for plain reports, and leaves `P'`. -/
theorem booting_step {f : Store → Store} (h : Booting P s) (hi : Owner s)
    (hup : (f s).usbUp = s.usbUp) (hq : (f s).shared.resetRequested = false)
    (hlog : ∃ later, (f s).log = later ++ s.log ∧ ∀ m ∈ later, PlainReport m.obs)
    (harm : (f s).own.resetArmed = true →
      (f s).rtc.lastRequestId = (f s).shared.resetRequestId) (hp : P' (f s)) :
    Owner (f s) ∧ Booting P' (f s) := by
  obtain ⟨later, hlog, hlater⟩ := hlog
  have hplain : ∀ m ∈ later, Plain m.obs := fun m hm => (hlater m hm).1
  have hacc : ∀ id, ¬Accepted id (f s).log := fun id h' =>
    h.unaccepted id ((Plain.accepted hplain).1 (hlog ▸ h'))
  have hcons : ¬Consumed (f s).log := fun h' =>
    h.unconsumed ((Plain.consumed hplain).1 (hlog ▸ h'))
  refine ⟨⟨?_, ?_, fun id h' => absurd h' (hacc id), harm⟩,
    hup.trans h.down, hacc, hcons, hq, hp⟩
  · rw [hlog]
    exact hi.exclusive.append fun m hm _ _ id accepted hobs =>
      absurd hobs ((hplain m hm).2.2 id accepted)
  · rw [hlog]
    exact hi.unprogrammed.append fun m hm _ _ at' value hobs =>
      absurd hobs ((hlater m hm).2 at' value)

theorem booting_modify {f : Store → Store} (hup : ∀ s, (f s).usbUp = s.usbUp)
    (hq : ∀ s, (f s).shared.resetRequested = s.shared.resetRequested ∨
      (f s).shared.resetRequested = false) (hlog : ∀ s, (f s).log = s.log)
    (h : ∀ s, Owner s → P s → ((f s).own.resetArmed = true →
      (f s).rtc.lastRequestId = (f s).shared.resetRequestId) ∧ P' (f s)) :
    ownerGuard.Triple (Booting P) (.modify f) (fun _ => Booting P') := by
  refine .modify booting_stable fun s hi hb => ?_
  obtain ⟨harm, hp⟩ := h s hi hb.holds
  refine booting_step hb hi (hup s) ?_ ⟨[], hlog s, by simp⟩ harm hp
  rcases hq s with hq | hq
  · exact hq.trans hb.unqueued
  · exact hq

theorem booting_erase (h : ∀ s flash log, P s → P { s with flash := flash, log := log }) :
    ownerGuard.Triple (Booting P) erase (fun _ => Booting P) := by
  refine .call booting_stable fun w s _ hi hb => ?_
  exact booting_step (f := fun s => { s.note (.erase w.eraseOk) with
      flash := if w.eraseOk then fun _ => Log.ERASED else w.eraseLeaves }) hb hi rfl hb.unqueued
    ⟨[_], rfl, fun m hm => by rw [List.mem_singleton.1 hm]; simp [PlainReport, Plain]⟩ hi.armed
    (h s _ _ hb.holds)

/-- The stored id, and the request it is consumed for. -/
def OwnsReset (id : Word) (s : Store) : Prop :=
  s.rtc.lastRequestId = id ∧ s.shared.resetRequestId = id

theorem clearRtc_triple {id' : Word} (hid : rtc.lastRequestId = id) :
    ownerGuard.Triple (fun s => Booting (fun s => s.shared.resetRequestId = id) s ∧
        rtcPart.get s = rtc) (onRtc (Reset.clear id'))
      (fun _ s => Booting (fun s => s.shared.resetRequestId = id) s) := by
  have hpart : ∀ {s s' : Store}, Rely s s' → rtcPart.get s' = rtcPart.get s := fun hr => hr.rtc
  refine (Guard.Triple.within (J := Reset.Clearing rtc) Reset.clear_triple hpart booting_stable
    (fun _ _ h => ⟨h.down, h.unaccepted, h.unconsumed, h.unqueued, h.holds⟩) ?_ ?_).conseq
    (fun _ _ h => h) fun _ _ _ h => h.1
  · intro t s hi hb ht
    exact ⟨hi.exclusive, hi.unprogrammed, hi.owner,
      fun _ => (ht.1.trans hid).trans hb.holds.symm⟩
  · exact fun s _ _ h => ⟨by rw [h], fun _ => h⟩

theorem eraseAndClear_triple :
    ownerGuard.Triple (Booting (OwnsReset id)) (eraseAndClear B)
      (fun _ => Booting fun s => s.shared.resetRequestId = id) := by
  have hweak : ∀ {r : Bool}, ownerGuard.Triple (Booting (OwnsReset id)) (.ret r)
      (fun _ => Booting fun s => s.shared.resetRequestId = id) :=
    .ret fun _ _ h => h.weaken fun h => h.2
  refine .bind (booting_erase fun _ _ _ h => h) fun _ => .ite (fun _ => ?_) fun _ => hweak
  refine .bind (.get booting_stable) fun _ => .ite (fun _ => ?_) fun _ => ?_
  · refine .bind ((Guard.Triple.get booting_stable).conseq (fun _ _ h => h.1)
      fun _ _ _ h => h.1) fun id' => ?_
    intro s hi h
    exact clearRtc_triple h.holds.1 s hi ⟨h.weaken fun h => h.2, rfl⟩
  · exact hweak.conseq (fun _ _ h => h.1) fun _ _ _ h => h

/-- What `fw_params_init` starts its two branches from. -/
def TableSet (s : Store) : Prop :=
  s.own.lastResetRequestId = s.rtc.lastRequestId ∧ s.own.resetArmed = false

theorem initReset_triple : ownerGuard.Triple (Booting TableSet) (initReset B)
    (fun _ => Booting fun _ => True) := by
  intro s₀ hi₀ h₀
  suffices htriple : ownerGuard.Triple (Booting fun s => TableSet s ∧ s.rtc = s₀.rtc) (initReset B)
      (fun _ => Booting fun _ => True) from htriple s₀ hi₀ (h₀.weaken fun h => ⟨h, rfl⟩)
  unfold initReset
  refine .bind (Q := fun _ => Booting (OwnsReset s₀.rtc.lastRequestId)) ?_ fun _ => ?_
  · exact booting_modify (fun _ => rfl) (fun _ => .inl rfl) (fun _ => rfl) fun s _ h =>
      ⟨fun _ => h.1.1.symm, congrArg _ h.2, h.1.1.trans (congrArg _ h.2)⟩
  refine .bind eraseAndClear_triple fun ok => .ite (fun _ => ?_) fun _ => ?_
  · exact booting_modify (fun _ => rfl) (fun _ => .inl rfl) (fun _ => rfl)
      fun t _ _ => ⟨fun h => absurd h (by simp), trivial⟩
  · exact booting_modify (fun _ => rfl) (fun _ => .inl rfl) (fun _ => rfl)
      fun t hi _ => ⟨hi.armed, trivial⟩

theorem initErase_triple : ownerGuard.Triple (Booting fun _ => True) (initErase B)
    (fun _ => Booting fun _ => True) :=
  .bind (booting_erase fun _ _ _ h => h) fun _ => .ite
    (fun _ => booting_modify (fun _ => rfl) (fun _ => .inl rfl) (fun _ => rfl)
      fun _ hi _ => ⟨hi.armed, trivial⟩)
    fun _ => booting_modify (fun _ => rfl) (fun _ => .inl rfl) (fun _ => rfl)
      fun _ hi _ => ⟨hi.armed, trivial⟩

theorem loadScan_triple {sc : Log.Scan} : ownerGuard.Triple (Booting fun _ => True)
    (.modify (loadScan B sc)) (fun _ => Booting fun _ => True) := by
  refine booting_modify (fun s => ?_) (fun s => .inl ?_) (fun s => ?_) fun s hi _ => ⟨?_, trivial⟩
  all_goals obtain ⟨v, st, sv, src, h⟩ := loadScan_shape B sc s; rw [h]
  exact hi.armed

theorem initLog_triple : ownerGuard.Triple (Booting fun _ => True) (initLog B)
    (fun _ => Booting fun _ => True) := by
  refine .bind ((Guard.Triple.get booting_stable).conseq (fun _ _ h => h) fun _ _ _ h => h.1)
    fun sc => .bind loadScan_triple fun _ => ?_
  cases Log.appendPoint sc B.table.recordWords B.areaWords with
  | ready _ => exact .ret fun _ _ h => h
  | erase => exact initErase_triple
  | retained =>
    dsimp only
    exact booting_modify (fun _ => rfl) (fun _ => .inl rfl) (fun _ => rfl)
      fun _ hi _ => ⟨hi.armed, trivial⟩

theorem boot_triple : ownerGuard.Triple (Booting fun _ => True) (boot B) (fun _ => Resting) := by
  refine .bind (Q := fun _ => Booting fun _ => True) ?_ fun _ => ?_
  · refine .bind (Q := fun _ => Booting TableSet) ?_ fun _ => ?_
    · exact booting_modify (fun _ => rfl) (fun _ => .inr rfl) (fun _ => rfl)
        fun s _ _ => ⟨fun h => absurd h (by simp [initTable]), rfl, rfl⟩
    refine .bind (.get booting_stable) fun pending => .ite (fun _ => ?_) fun _ => ?_
    · exact initReset_triple.conseq (fun _ _ h => h.1) fun _ _ _ h => h
    · exact initLog_triple.conseq (fun _ _ h => h.1.weaken fun _ => trivial) fun _ _ _ h => h
  · refine .modify booting_stable fun s hi h => ⟨⟨hi.exclusive, hi.unprogrammed, hi.owner,
      hi.armed⟩, fun hc => absurd hc h.unconsumed, fun hq => ?_⟩
    exact absurd hq (by simp [h.unqueued])

/-! ## Every run -/

theorem Owner.cut (hi : Owner s) : Owner (cut s) :=
  ⟨⟨fun _ _ hobs => absurd hobs (by simp), hi.exclusive⟩,
    ⟨fun _ _ hobs => absurd hobs (by simp), hi.unprogrammed⟩,
    fun id hacc => by simp [Params.cut, Store.note, Accepted, SinceBoot] at hacc,
    fun h => absurd h (by simp [Params.cut, Own.zero])⟩

theorem booting_cut {s : Store} : Booting (fun _ => True) (Params.cut s) :=
  ⟨rfl, fun _ hacc => by simp [Params.cut, Store.note, Accepted, SinceBoot] at hacc,
    fun hc => by simp [Params.cut, Store.note, Consumed, SinceBoot] at hc, rfl, trivial⟩

theorem keepsOwner (B : Build) : (machine B).Keeps ownerGuard Resting where
  stable := resting_stable
  irq _ _ hi := ⟨hi.irq, irq_rely⟩
  body
    | .service _ => service_triple
    | .takeDirtyGroups => calm_triple (calm_setShared (fun _ => rfl) (fun _ => rfl))
    | .markAllDirty => calm_triple (calm_setShared (fun _ => rfl) (fun _ => rfl))
  cut _ _ hi := hi.cut
  boot _ s hi := boot_triple (Params.cut s) hi.cut booting_cut

/-- **A reset has one owner.** In every run, from any flash and any backup registers, with
    interrupts and cuts anywhere: after a request with `id` was accepted, a request with
    another id of the same boot is refused, `id` stays the owner, and an armed store has it
    in the registers; and no word is programmed after a request was taken. -/
theorem reset_has_one_owner (B : Build) (flash : Flash) (rtc : Reset.Backup)
    (es : List StoreEvent) :
    let s := ((machine B).run (start B flash rtc) es).st
    Always Exclusive s.log ∧
      (∀ id, Accepted id s.log → s.shared.resetRequestId = id ∧
        (s.own.resetArmed = true → s.rtc.lastRequestId = id)) ∧
      Always Unprogrammed s.log := by
  have hblank : Owner ⟨flash, rtc, .zero, .zero, false, []⟩ :=
    ⟨trivial, trivial, fun _ hacc => hacc.elim, fun h => absurd h (by simp [Own.zero])⟩
  have hi : Owner ((machine B).run (start B flash rtc) es).st :=
    ((keepsOwner B).run ((keepsOwner B).booted hblank) fun e _ => by cases e <;> trivial).1
  refine ⟨hi.exclusive, fun id hacc => ?_, hi.unprogrammed⟩
  obtain ⟨hid, _⟩ := hi.owner id hacc
  exact ⟨hid, fun harm => (hi.armed harm).trans hid⟩

end Params
end Mowgli
