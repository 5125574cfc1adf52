import Mowgli.Params.StoreCommit

/-!
# StoreService — the service routine comes back to where it started

The rest of `fw_params_service` around the commit: the commit request, the reports and
the reset, each from `Rest` back to `Rest`.

Two of them write a mark that has to be true. A value report (`sendValue_triple`) is,
because the value it compares with the mirror is the one it has just read. A status
report (`sendStoreStatus_triple`) is, because what is `Settled` of the mirror holds of the
newest record.

A reset is taken in the other order: the commit in progress is dropped, which leaves only
`Held` of the records, and **the id is known to be an accepted one before the first register is
written** (`armRtc_keeps`).
-/

namespace Mowgli
namespace Params

open Binary32 (Bits)
open Trace

variable {B : Build} {A : Premises} {s : Store}

/-! ## The commit request -/

theorem serviceCommit_rest : (recordGuard B A).Triple (Rest B A) (serviceCommit B)
    (fun _ => Rest B A) := by
  unfold serviceCommit
  refine .bind (armedOrBlocked_triple rest_stable) fun r => .ite (fun hr => ?_) fun hr => ?_
  · subst hr
    have hrefuse := idle_triple (B := B) (A := A) idle_refuseCommit
      (K := fun o => o.resetArmed = true ∨ o.resetBlocked = true) fun h hk => by
        obtain ⟨_, _, ha, hb, _⟩ := Own.same_records (B := B) h
        rw [ha, hb]
        exact hk
    refine .bind (hrefuse.conseq (fun s _ h => ⟨h.1, h.2.1 rfl⟩) fun _ _ _ h => h) fun _ => ?_
    refine .modify (rest_stable.and (own_stable fun _ _ o =>
      o.resetArmed = true ∨ o.resetBlocked = true)) fun s hi h => ⟨?_, ⟨?_, .inl h.2⟩, ?_⟩
    · exact hi.quiet ⟨rfl, rfl, fun h => ⟨h, rfl⟩, fun h => h, [], rfl, by simp⟩
    · exact h.1.ready.held.same rfl ⟨[], rfl, by simp⟩ rfl rfl
    · exact h.1.settled.frame (fun h => h) (fun _ => rfl) rfl ⟨[], rfl, by simp⟩ fun _ => .inl rfl
  have hstable : (recordGuard B A).Stable fun s => Rest B A s ∧ (r = true ↔ Published s) :=
    rest_stable.and iff_published_stable
  refine .bind (.get hstable) fun active => .ite (fun hact => ?_) fun hact => ?_
  · exact stepCommit_triple.conseq
      (fun s _ h => ⟨⟨h.1.1, fun hp => hr (h.1.2.2 hp)⟩, h.2.trans hact⟩) fun _ _ _ h => h
  have hina : (recordGuard B A).Stable fun s => Rest B A s ∧ Inactive s.own :=
    rest_stable.and (own_stable fun _ _ o => Inactive o)
  refine .bind ((Guard.Triple.get hina).conseq
    (fun s _ h => ⟨h.1.1, h.2.trans (Bool.eq_false_iff.2 hact)⟩) fun _ _ _ h => h.1)
    fun requested => .ite (fun _ => ?_) fun _ => .ret fun _ _ h => h.1
  have hclear : (setShared fun h => { h with commitRequested := false }).Does Idle :=
    idle_setShared (fun _ h => ⟨h, rfl⟩) (fun _ h => h) fun _ => rfl
  exact .bind (idle_triple hclear inactive_same) fun _ => startCommit_triple

/-! ## Reports -/

variable {value : Bits} {i : Nat} {now id : Word}

theorem valuePacket_persisted {status : Status} {o : Own} :
    (valuePacket B i status value o).persisted = true ↔
      B.table.isVolatile i = false ∧ o.storedValue i = some value := by
  unfold valuePacket ValuePacket.persisted Own.storedValue
  cases hv : B.table.isVolatile i with
  | true => simp [FLAG_VOLATILE, FLAG_PERSISTED]
  | false =>
    cases hs : o.storedValid i with
    | false => simp [FLAG_PERSISTED]
    | true =>
      by_cases heq : o.stored i = value
      · simp [heq]
      · simp [heq, FLAG_PERSISTED]

/-- The value report has just read `value`, and has not been written yet. -/
def JustRead (i : Nat) (value : Bits) (log : List Mark) : Prop :=
  Since (fun m => ∀ j q, m.obs ≠ .value j q) (fun m _ => m.obs = .valueRead i value) log

theorem justRead_stable {inv : Store → Prop} {answers : Answer → Prop} :
    (guard inv answers).Stable fun s => JustRead i value s.log := by
  intro s s' hj h _
  obtain ⟨calls, hlog, hcalls⟩ := h.log
  rw [hlog]
  exact hj.later fun m hm => (IsCall.silent (hcalls m hm)).2.1

/-- **The flag is what the mirror says, and the mirror is the newest record.** -/
theorem Mirror.valueTrue {status : Status} (h : Mirror B s) (hi : i < B.table.count)
    (hj : JustRead i value s.log) :
    ValueTrue B ⟨s.flash, s.rtc, .value i (valuePacket B i status value s.own)⟩ s.log := by
  intro j packet ho
  obtain ⟨rfl, rfl⟩ := Obs.value.inj ho
  refine ⟨hi, rfl, fun hp => ?_, fun hv hok hr => ?_, hj⟩
  · obtain ⟨hv, hs⟩ := valuePacket_persisted.1 hp
    exact ⟨hv, h.recorded hi hv hs⟩
  · refine valuePacket_persisted.2 ⟨hv, ?_⟩
    rcases h i hi hv with heq | ⟨hfail, _⟩
    · exact heq.trans hr
    · exact absurd hfail hok

/-- A report leaves the foreground at rest. -/
theorem Rest.noted {obs : Obs} (h : Rest B A s) (hn : Neutral obs)
    (ht : ∀ values, obs ≠ .snapshot values) : Rest B A (s.note obs) := by
  refine ⟨h.ready.noted (f := id) hn, h.settled.frame (fun h => h) (fun h => h) rfl
    ⟨[_], rfl, fun m hm => ?_⟩ fun _ => .inl rfl⟩
  rw [List.mem_singleton.1 hm]
  exact ⟨hn.1, ht⟩

theorem sendValue_triple (hi : i < B.table.count) :
    (recordGuard B A).Triple (Rest B A) (sendValue B i) (fun _ => Rest B A) := by
  refine .bind (idle_rest idle_get) fun status => ?_
  refine .bind (Q := fun value s => Rest B A s ∧ JustRead i value s.log) ?_ fun value => ?_
  · refine .call rest_stable fun _ s _ hinv h => ?_
    have hidle : Idle s (s.note (.valueRead i (s.shared.values i))) :=
      .note (by simp [Silent, Neutral])
    exact ⟨hinv.quiet hidle.toQuiet, h.idle hidle, .inl rfl⟩
  · refine .modify (rest_stable.and justRead_stable) fun s hinv h => ⟨?_, ?_⟩
    · exact hinv.note (by simp [Neutral]) fun hs =>
        ⟨(h.1.ready.held.mirror hs).valueTrue hi h.2, fun _ ho => absurd ho (by simp),
          fun _ _ ho => absurd ho (by simp)⟩
    · exact h.1.noted (by simp [Neutral]) (by simp)

theorem sendStoreStatus_triple : (recordGuard B A).Triple (Rest B A) (sendStoreStatus B)
    (fun _ => Rest B A) := by
  refine .modify rest_stable fun s hi h => ⟨hi.note (by simp [Neutral]) fun hs => ⟨?_, ?_, ?_⟩,
    h.noted (by simp [Neutral]) (by simp)⟩
  · exact fun _ _ ho => absurd ho (by simp)
  · exact fun _ ho => absurd ho (by simp)
  · intro packet applied ho hc
    obtain ⟨rfl, rfl⟩ := Obs.status.inj ho
    obtain ⟨_, snapshot, hnow, hall⟩ := h.settled hc
    refine ⟨snapshot, hnow, fun i hi hv => ⟨?_, (hall i hi hv).2⟩⟩
    exact (h.ready.held.mirror hs).recorded hi hv (hall i hi hv).1

theorem idle_callShared {α : Type} {r : Store → α} {f : Shared → Shared}
    (hq : ∀ h, (f h).resetRequested = true → h.resetRequested = true ∧
      (f h).resetRequestId = h.resetRequestId)
    (hc : ∀ h, (f h).lastCommit = .unchanged → h.lastCommit = .unchanged)
    (hv : ∀ h, (f h).values = h.values) :
    (Routine.call fun (_ : Answer) s => (r s, s.setShared f)).Does Idle :=
  .call fun _ s => .ofShared (hq s.shared) (hc s.shared) (hv s.shared)

theorem sendOneReport_triple : (recordGuard B A).Triple (Rest B A) (sendOneReport B)
    (fun _ => Rest B A) := by
  unfold sendOneReport
  have hget : ∀ {α : Type} {r : Store → α}, (recordGuard B A).Triple (Rest B A) (.get r)
      (fun _ => Rest B A) := idle_rest idle_get
  refine .bind hget fun unknown => .ite (fun _ => ?_) fun _ => ?_
  · refine .bind (idle_rest (idle_callShared (fun _ h => ⟨h, rfl⟩) (fun _ h => h) fun _ => rfl))
      fun id => ?_
    exact idle_rest (.modify fun s => .note (by simp [Silent, Neutral]))
  refine .bind (idle_rest (idle_callShared (fun _ h => ⟨h, rfl⟩) (fun _ h => h) fun _ => rfl))
    fun bit => ?_
  refine .ite (fun _ => ?_) fun _ => .ite (fun hlt => sendValue_triple hlt) fun _ => .ret fun _ _ h => h
  refine .bind hget fun pending => .ite (fun _ => ?_) fun _ => .ret fun _ _ h => h
  exact .bind (idle_rest (idle_setShared (fun _ h => ⟨h, rfl⟩) (fun _ h => h) fun _ => rfl))
    fun _ => sendStoreStatus_triple

theorem serviceReport_triple : (recordGuard B A).Triple (Rest B A)
    (serviceReport B now) (fun _ => Rest B A) := by
  refine .bind (idle_rest idle_get) fun due => .ite (fun _ => ?_) fun _ => .ret fun _ _ h => h
  exact .bind (idle_rest (idle_setOwn fun _ => rfl)) fun _ => sendOneReport_triple

/-! ## The reset -/

/-- What is left while the request `id` is being taken. -/
def Taken (B : Build) (A : Premises) (id : Word) (s : Store) : Prop :=
  Held B A s ∧ AcceptedEver id s.log ∧ Settled B s

theorem taken_stable : (recordGuard B A).Stable (Taken B A id) :=
  held_stable.and (accepted_stable.and settled_stable)

/-- A quiet statement on the way, over the statics the mirror does not need. -/
theorem taken_modify {f : Store → Store} (hq : ∀ s, Quiet s (f s))
    (hnext : ∀ s, (f s).own.nextFree = s.own.nextFree)
    (hstored : ∀ s, (f s).own.storedValue = s.own.storedValue)
    (hina : ∀ s, Inactive s.own → Inactive (f s).own)
    (hvalues : ∀ s, (f s).shared.values = s.shared.values) :
    (recordGuard B A).Triple (Taken B A id) (.modify f) (fun _ => Taken B A id) := by
  refine .modify taken_stable fun s hi h => ⟨hi.quiet (hq s), ?_⟩
  obtain ⟨later, hlog, hlater⟩ := (hq s).log
  refine ⟨h.1.same (hq s).flash ⟨later, hlog, fun m hm => (hlater m hm).1⟩ (hnext s) (hstored s),
    hlog ▸ h.2.1.append, h.2.2.frame (hq s).commit (hina s) (hstored s) ⟨later, hlog, fun m hm => ?_⟩
    fun i => .inl (congrFun (hvalues s) i)⟩
  exact ⟨(hlater m hm).1.1, (hlater m hm).2.2.2.2⟩

/-- Whatever of `id` the registers hold while it is armed, it is an accepted id. -/
theorem armRtc_keeps : (recordGuard B A).Triple (Taken B A id) (onRtc (Reset.arm id))
    (fun _ => Taken B A id) := by
  intro s₀ hi₀ h₀
  let K : Store → Prop := fun s => Taken B A id s ∧
    (A.cleared → s₀.rtc.isPending = true → AcceptedEver s₀.rtc.lastRequestId s.log)
  have hacc : ∀ {id : Word}, (recordGuard B A).Stable fun s => AcceptedEver id s.log :=
    accepted_stable
  have hK : (recordGuard B A).Stable K := taken_stable.and fun s s' h hr hi ha hp =>
    hacc s s' (h ha hp) hr hi
  have hpart : ∀ {s s' : Store}, Rely s s' → rtcPart.get s' = rtcPart.get s := fun hr => hr.rtc
  have htriple : (recordGuard B A).Triple (fun s => K s ∧ rtcPart.get s = s₀.rtc)
      (onRtc (Reset.arm id)) (fun _ => Taken B A id) := by
    refine (Guard.Triple.within Reset.arm_triple hpart hK ?_ ?_ ?_).conseq (fun _ _ h => h)
      fun _ _ _ h => h.1.1
    · exact fun _ _ h => ⟨⟨⟨h.1.1.below, h.1.1.mirror⟩, h.1.2.1, h.1.2.2⟩, h.2⟩
    · intro rtc s hi hs harming
      refine ⟨fun ha hp => ?_, hi.queued, hi.kept, hi.erases, hi.told⟩
      rcases harming hp with heq | ⟨_, hid⟩
      · obtain rfl : rtc = s₀.rtc := heq
        exact hs.2 ha hp
      · exact hid.symm ▸ hs.1.2.1
    · exact fun s _ _ h _ => .inl h
  exact htriple s₀ hi₀ ⟨⟨h₀, fun ha hp => hi₀.marked ha hp⟩, rfl⟩

/-- Once the reset is published, nothing more has to be known of the append point. -/
theorem publish_triple {f : Own → Own} {P : Store → Prop}
    (hstable : (recordGuard B A).Stable P) (hP : ∀ s, P s → Held B A s ∧ Settled B s)
    (hnext : ∀ o, (f o).nextFree = o.nextFree) (hstored : ∀ o, (f o).storedValue = o.storedValue)
    (hina : ∀ o, Inactive o → Inactive (f o))
    (hpub : ∀ o, (f o).resetArmed = true ∨ (f o).resetBlocked = true) :
    (recordGuard B A).Triple P (setOwn f) (fun _ => Rest B A) := by
  refine .modify hstable fun s hi h => ⟨?_, ⟨?_, .inl (hpub s.own)⟩, ?_⟩
  · exact hi.quiet ⟨rfl, rfl, fun h => ⟨h, rfl⟩, fun h => h, [], rfl, by simp⟩
  · exact (hP s h).1.same rfl ⟨[], rfl, by simp⟩ (hnext s.own) (hstored s.own)
  · exact (hP s h).2.frame (fun h => h) (hina s.own) (hstored s.own) ⟨[], rfl, by simp⟩
      fun _ => .inl rfl

theorem armReset_rest : (recordGuard B A).Triple (Taken B A id) (armReset id)
    (fun _ => Rest B A) := by
  unfold armReset
  have hcommit : ∀ {c : Commit}, c ≠ .unchanged →
      (setShared fun h => { h with lastCommit := c }).Does Idle := fun hc =>
    idle_setShared (fun _ h => ⟨h, rfl⟩) (fun _ h => absurd h hc) fun _ => rfl
  have hdone : ∀ {c : Commit}, c ≠ .unchanged → (recordGuard B A).Triple (Rest B A)
      (do setOwn fun o => { o with lastResetRequestId := id }
          setShared fun h => { h with lastCommit := c }) (fun _ => Rest B A) := fun hc =>
    idle_rest (.bind (idle_setOwn fun _ => rfl) fun _ => hcommit hc)
  refine .bind armRtc_keeps fun ok => .ite (fun _ => ?_) fun _ => ?_
  · exact .bind (publish_triple taken_stable (fun _ h => ⟨h.1, h.2.2⟩) (fun _ => rfl)
      (fun _ => rfl) (fun _ h => h) fun _ => .inl rfl) fun _ => hdone (by simp)
  refine .bind (publish_triple taken_stable (fun _ h => ⟨h.1, h.2.2⟩) (fun _ => rfl)
    (fun _ => rfl) (fun _ h => h) fun _ => .inr rfl) fun _ => ?_
  refine .bind (idle_rest idle_get) fun pending => .ite (fun _ => ?_) fun _ => ?_
  · exact .bind (publish_triple rest_stable (fun _ h => ⟨h.ready.held, h.settled⟩) (fun _ => rfl)
      (fun _ => rfl) (fun _ h => h) fun _ => .inl rfl) fun _ => hdone (by simp)
  · exact idle_rest (hcommit (by simp))

theorem takeReset_rest : (recordGuard B A).Triple
    (fun s => Rest B A s ∧ s.shared.resetRequested = true) (takeReset now)
    (fun _ => Rest B A) := by
  have hstable : (recordGuard B A).Stable fun s =>
      Rest B A s ∧ s.shared.resetRequested = true :=
    rest_stable.and fun _ _ h hr _ => (hr.queued h).1
  refine .bind (Q := Taken B A) (.call hstable fun _ s _ hi h => ?_) fun id => ?_
  · have hidle : Idle s (s.note (.consumed s.shared.resetRequestId)) :=
      .note (by simp [Silent, Neutral])
    have hrest := h.1.idle hidle
    exact ⟨hi.quiet hidle.toQuiet, hrest.ready.held, .inr (hi.queued h.2), hrest.settled⟩
  refine .bind (taken_modify (fun s => ?_) (fun _ => rfl) (fun _ => rfl) (fun _ _ => rfl)
    fun _ => rfl) fun _ => ?_
  · exact ⟨rfl, rfl, fun h => ⟨h, rfl⟩, fun h => h, [], rfl, by simp⟩
  refine .bind (taken_modify (fun s => ?_) (fun _ => rfl) (fun _ => rfl) (fun _ h => h)
    fun _ => rfl) fun _ => ?_
  · exact ⟨rfl, rfl, fun h => ⟨h, rfl⟩, fun h => h, [], rfl, by simp⟩
  refine .bind armReset_rest fun _ => .bind (idle_rest (idle_setOwn fun o => ?_)) fun _ => ?_
  · split_ifs <;> rfl
  exact idle_rest (.bind (idle_setShared (fun _ h => absurd h (by simp)) (fun _ h => h) fun _ => rfl)
    fun _ => idle_setShared (fun _ h => ⟨h, rfl⟩) (fun _ h => h) fun _ => rfl)

/-- **One pass of the service routine.** -/
theorem service_rest : (recordGuard B A).Triple (Rest B A) (service B now)
    (fun _ => Rest B A) := by
  refine .bind ?_ fun _ => .bind serviceCommit_rest fun _ =>
    .bind (idle_rest idle_serviceStatus) fun _ => serviceReport_triple
  refine .bind (.get rest_stable) fun requested => .ite (fun hreq => ?_) fun _ => ?_
  · exact takeReset_rest.conseq (fun s _ h => ⟨h.1, h.2.trans hreq⟩) fun _ _ _ h => h
  · exact .ret fun _ _ h => h.1

end Params
end Mowgli
