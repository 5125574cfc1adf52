import Mowgli.Params.Store

/-!
# StoreRely — what the interrupt can do to the foreground

Whatever the USB interrupt calls, the flash, the backup registers and the statics in
`Own` are as they were, and **a queued or taken reset request keeps its id**: that is
`Rely`, the relation the store's proofs give the interrupt. `irq_rely` shows that every
call stays within it.

`Quiet` is the foreground's counterpart, for the statements that touch neither the
records nor the reset: the report routines and most of the bookkeeping.
-/

namespace Mowgli
namespace Params

open Trace

/-- The observations an interrupt writes. -/
def Obs.IsCall (o : Obs) : Prop :=
  (∃ id accepted, o = .resetCall id accepted) ∨ ∃ i value, o = .applied i value

/-- Parameter `i` was set since the last snapshot. -/
def SetSince (i : Nat) (log : List Mark) : Prop :=
  Since (fun m => ∀ values, m.obs ≠ .snapshot values) (fun m _ => ∃ value, m.obs = .applied i value)
    log

theorem SetSince.calls {i : Nat} {calls log : List Mark} (h : SetSince i log)
    (hcalls : ∀ m ∈ calls, m.obs.IsCall) : SetSince i (calls ++ log) := by
  refine h.later fun m hm values => ?_
  rcases hcalls m hm with ⟨id, accepted, ho⟩ | ⟨j, value, ho⟩
  · simp [ho]
  · simp [ho]

structure Rely (s s' : Store) : Prop where
  flash : s'.flash = s.flash
  rtc : s'.rtc = s.rtc
  own : s'.own = s.own
  usbUp : s'.usbUp = s.usbUp
  /-- Before USB is up nothing interrupts. -/
  down : s.usbUp = false → s' = s
  /-- A queued request stays queued, with its id. -/
  queued : s.shared.resetRequested = true →
    s'.shared.resetRequested = true ∧ s'.shared.resetRequestId = s.shared.resetRequestId
  /-- An armed or blocked store takes no new request. -/
  owned : s.own.resetArmed = true ∨ s.own.resetBlocked = true →
    s'.shared.resetRequested = s.shared.resetRequested ∧
      s'.shared.resetRequestId = s.shared.resetRequestId
  log : ∃ calls, s'.log = calls ++ s.log ∧ ∀ m ∈ calls, m.obs.IsCall
  /-- No call makes the last commit an UNCHANGED one. -/
  commit : s'.shared.lastCommit = .unchanged → s.shared.lastCommit = .unchanged
  /-- An applied value changes by a set only. -/
  set : ∀ i, s'.shared.values i = s.shared.values i ∨ SetSince i s'.log

theorem Rely.refl (s : Store) : Rely s s :=
  ⟨rfl, rfl, rfl, rfl, fun _ => rfl, fun h => ⟨h, rfl⟩, fun _ => ⟨rfl, rfl⟩, ⟨[], rfl, by simp⟩,
    fun h => h, fun _ => .inl rfl⟩

theorem Rely.trans {a b c : Store} (hab : Rely a b) (hbc : Rely b c) : Rely a c where
  flash := hbc.flash.trans hab.flash
  rtc := hbc.rtc.trans hab.rtc
  own := hbc.own.trans hab.own
  usbUp := hbc.usbUp.trans hab.usbUp
  down h := by
    obtain rfl := hab.down h
    exact hbc.down h
  queued h := by
    obtain ⟨hq, hid⟩ := hab.queued h
    obtain ⟨hq', hid'⟩ := hbc.queued hq
    exact ⟨hq', hid'.trans hid⟩
  owned h := by
    obtain ⟨hq, hid⟩ := hab.owned h
    obtain ⟨hq', hid'⟩ := hbc.owned (hab.own ▸ h)
    exact ⟨hq'.trans hq, hid'.trans hid⟩
  log := by
    obtain ⟨calls, hlog, hcalls⟩ := hab.log
    obtain ⟨calls', hlog', hcalls'⟩ := hbc.log
    refine ⟨calls' ++ calls, by rw [hlog', hlog, List.append_assoc], ?_⟩
    intro m hm
    rcases List.mem_append.1 hm with hm | hm
    · exact hcalls' m hm
    · exact hcalls m hm
  commit h := hab.commit (hbc.commit h)
  set i := by
    obtain ⟨calls, hlog, hcalls⟩ := hbc.log
    rcases hbc.set i with heq | hset
    · rcases hab.set i with heq' | hset
      · exact .inl (heq.trans heq')
      · exact .inr (hlog ▸ hset.calls hcalls)
    · exact .inr hset

/-- A guard of the store: an invariant, with the interrupt as its rely. -/
def guard (inv : Store → Prop) (answers : Answer → Prop) : Guard Answer Store where
  inv := inv
  rely := Rely
  answers := answers
  refl := Rely.refl
  trans := Rely.trans

variable {answers : Answer → Prop} {inv : Store → Prop} {h : Shared} {id : BitVec 16}

/-- What is said about the foreground's own statics, the flash and the registers is safe
    from the interrupt. -/
theorem own_stable (P : Flash → Reset.Backup → Own → Prop) :
    (guard inv answers).Stable fun s => P s.flash s.rtc s.own := by
  intro s s' hp hr _
  rw [hr.flash, hr.rtc, hr.own]
  exact hp

/-- A reset owns the store: no commit is taken, no word programmed. -/
def Published (s : Store) : Prop := s.own.resetArmed = true ∨ s.own.resetBlocked = true

variable {s : Store} {o : Own}

theorem Rely.published {s' : Store} (h : Rely s s') : Published s' ↔ Published s := by
  unfold Published; rw [h.own]

theorem published_stable : (guard inv answers).Stable Published :=
  fun _ _ hp hr _ => hr.published.2 hp

/-- What `s_reset_armed || s_reset_blocked` tells the foreground holds until it changes it. -/
theorem armedOrBlocked_triple {P : Store → Prop} (hp : (guard inv answers).Stable P) :
    (guard inv answers).Triple P armedOrBlocked
      (fun r s => P s ∧ (r = true ↔ Published s)) := by
  refine .bind (.get hp) fun armed => .ite (fun harm => ?_) fun harm => ?_
  · exact .ret fun s _ h => ⟨h.1, iff_of_true rfl (.inl (h.2.trans harm))⟩
  · have hstable : (guard inv answers).Stable fun s => P s ∧ s.own.resetArmed = armed :=
      hp.and (own_stable fun _ _ o => o.resetArmed = armed)
    refine (Guard.Triple.get hstable).conseq (fun _ _ h => h) fun r s _ h => ⟨h.1.1, ?_⟩
    unfold Published
    rw [← h.2, h.1.2]
    simp [harm]

theorem iff_published_stable {r : Bool} :
    (guard inv answers).Stable fun s => (r = true ↔ Published s) :=
  own_stable fun _ _ o => (r = true ↔ (o.resetArmed = true ∨ o.resetBlocked = true))

/-- Something happened since the last boot. -/
def SinceBoot (p : Mark → Prop) (log : List Mark) : Prop :=
  Since (fun m => m.obs ≠ .booted) (fun m _ => p m) log

variable {B : Build}

/-! ## The calls -/

/-- A call that leaves the reset request alone and does not report UNCHANGED. -/
structure Leaves (h h' : Shared) : Prop where
  requested : h'.resetRequested = h.resetRequested
  requestId : h'.resetRequestId = h.resetRequestId
  commit : h'.lastCommit = .unchanged → h.lastCommit = .unchanged

theorem refusedCommit_ne : refusedCommit o ≠ .unchanged := by
  unfold refusedCommit
  cases o.resetArmed with
  | true => simp
  | false => simp

theorem set_leaves {requested : Binary32.Bits} : Leaves h (set B id requested h) := by
  unfold set
  cases B.table.index id with
  | none => exact ⟨rfl, rfl, fun hc => hc⟩
  | some i =>
    dsimp only
    cases coerce (B.table.spec i) requested with
    | none => exact ⟨rfl, rfl, fun hc => hc⟩
    | some v => exact ⟨rfl, rfl, fun hc => hc⟩

theorem requestReport_leaves : Leaves h (requestReport B id h) := by
  unfold requestReport
  by_cases hall : id = ID_ALL
  · rw [if_pos hall]; exact ⟨rfl, rfl, fun hc => hc⟩
  · rw [if_neg hall]
    cases B.table.index id with
    | none => exact ⟨rfl, rfl, fun hc => hc⟩
    | some i => exact ⟨rfl, rfl, fun hc => hc⟩

theorem requestCommit_leaves : Leaves h (requestCommit o h) := by
  unfold requestCommit
  cases o.resetArmed || o.resetBlocked with
  | true => exact ⟨rfl, rfl, fun hc => absurd hc refusedCommit_ne⟩
  | false => exact ⟨rfl, rfl, fun hc => hc⟩

theorem reportResetRejected_leaves : Leaves h (reportResetRejected o h) :=
  ⟨rfl, rfl, fun hc => absurd hc refusedCommit_ne⟩

/-- A call that leaves the reset request alone, with what it has noted. -/
structure Aside (s s' : Store) : Prop extends Leaves s.shared s'.shared where
  shape : ∃ calls, s' = { s with shared := s'.shared, log := calls ++ s.log } ∧
    ∀ m ∈ calls, ∃ i value, m.obs = .applied i value
  set : ∀ i, s'.shared.values i = s.shared.values i ∨ SetSince i s'.log

theorem Aside.ofShared {f : Shared → Shared} (h : Leaves s.shared (f s.shared))
    (hset : (f s.shared).values = s.shared.values) : Aside s (s.setShared f) :=
  ⟨h, ⟨[], rfl, by simp⟩, fun i => .inl (congrFun hset i)⟩

theorem requestReport_values : (requestReport B id h).values = h.values := by
  unfold requestReport
  by_cases hall : id = ID_ALL
  · rw [if_pos hall]; rfl
  · rw [if_neg hall]
    cases B.table.index id with
    | none => rfl
    | some i => rfl

theorem requestCommit_values : (requestCommit o h).values = h.values := by
  unfold requestCommit
  split_ifs <;> rfl

/-- A set notes what it applies. -/
theorem set_aside {requested : Binary32.Bits} :
    Aside s ((s.noteSet B id requested).setShared (set B id requested)) := by
  have hleaves : Leaves s.shared (set B id requested s.shared) := set_leaves
  unfold Store.noteSet
  unfold Params.set at hleaves ⊢
  cases hindex : B.table.index id with
  | none =>
    rw [hindex] at hleaves
    exact ⟨hleaves, ⟨[], rfl, by simp⟩, fun _ => .inl rfl⟩
  | some i =>
    rw [hindex] at hleaves
    dsimp only at hleaves ⊢
    cases hcoerce : coerce (B.table.spec i) requested with
    | none =>
      rw [hcoerce] at hleaves
      exact ⟨hleaves, ⟨[], rfl, by simp⟩, fun _ => .inl rfl⟩
    | some v =>
      rw [hcoerce] at hleaves
      refine ⟨hleaves, ⟨[_], rfl, fun m hm => ⟨i, v.1, ?_⟩⟩, fun j => ?_⟩
      · rw [List.mem_singleton.1 hm]
      · by_cases hj : j = i
        · exact .inr (.inl ⟨v.1, by rw [hj]⟩)
        · exact .inl (if_neg hj)

/-- **What one interrupt can do**: nothing, a change of the shared statics that leaves the
    reset request alone, or a reset request. -/
theorem irq_cases (B : Build) (i : Irq) (s : Store) :
    irq B i s = s ∨
    (s.usbUp = true ∧ Aside s (irq B i s)) ∨
    ∃ id, irq B i s = s.called id (requestReset id s.own s.shared) ∧ s.usbUp = true := by
  unfold irq
  cases hup : s.usbUp with
  | false => exact .inl rfl
  | true =>
    cases i with
    | set id requested => exact .inr (.inl ⟨rfl, set_aside⟩)
    | requestReport id =>
      exact .inr (.inl ⟨rfl, .ofShared requestReport_leaves requestReport_values⟩)
    | requestCommit =>
      exact .inr (.inl ⟨rfl, .ofShared requestCommit_leaves requestCommit_values⟩)
    | reportResetRejected => exact .inr (.inl ⟨rfl, .ofShared reportResetRejected_leaves rfl⟩)
    | requestReset id => exact .inr (.inr ⟨id, rfl, rfl⟩)

/-- What `fw_params_request_reset` can return and leave behind. -/
theorem requestReset_cases (id : Word) (o : Own) (h : Shared) :
    -- refused
    (requestReset id o h).1 = false ∧ (requestReset id o h).2 = h ∨
    -- a duplicate of the request that owns the store
    (requestReset id o h).1 = true ∧ h.resetRequestId = id ∧
      (o.resetArmed = true ∨ h.resetRequested = true) ∧
      (requestReset id o h).2.resetRequested = h.resetRequested ∧
      (requestReset id o h).2.resetRequestId = h.resetRequestId ∨
    -- the request that takes ownership
    (requestReset id o h).1 = true ∧ o.resetArmed = false ∧ o.resetBlocked = false ∧
      h.resetRequested = false ∧
      (requestReset id o h).2 = { h with resetRequestId := id, resetRequested := true } := by
  unfold requestReset
  by_cases h0 : id = 0#32
  · rw [if_pos h0]; exact .inl ⟨rfl, rfl⟩
  rw [if_neg h0]
  cases harmed : o.resetArmed with
  | true =>
    by_cases hid : h.resetRequestId = id
    · simp [hid]
    · simp [hid]
  | false =>
    cases hblocked : o.resetBlocked with
    | true => simp
    | false =>
      cases hreq : h.resetRequested with
      | true =>
        by_cases hid : h.resetRequestId = id
        · simp [hid, hreq]
        · simp [hid]
      | false =>
        by_cases hlast : o.lastResetRequestId = id
        · simp [hlast]
        · simp [hlast]

theorem requestReset_keeps (id : Word) (o : Own) (h : Shared) :
    (requestReset id o h).2.lastCommit = h.lastCommit ∧
      (requestReset id o h).2.values = h.values := by
  unfold requestReset
  split_ifs <;> exact ⟨rfl, rfl⟩

theorem irq_rely {i : Irq} : Rely s (irq B i s) := by
  rcases irq_cases B i s with h | ⟨hup, h⟩ | ⟨id, h, hup⟩
  · rw [h]; exact Rely.refl s
  · obtain ⟨calls, hshape, hcalls⟩ := h.shape
    refine ⟨?_, ?_, ?_, ?_, fun hd => absurd hup (by simp [hd]),
      fun hq => ⟨h.requested.trans hq, h.requestId⟩, fun _ => ⟨h.requested, h.requestId⟩,
      ⟨calls, ?_, fun m hm => .inr (hcalls m hm)⟩, h.commit, h.set⟩ <;> rw [hshape]
  · rw [h]
    refine ⟨rfl, rfl, rfl, rfl, fun hd => absurd hup (by simp [hd]), fun hq => ?_, fun hp => ?_,
      ⟨[_], rfl, fun m hm => .inl ⟨id, _, congrArg Mark.obs (List.mem_singleton.1 hm)⟩⟩,
      fun hc => (requestReset_keeps id s.own s.shared).1.symm.trans hc,
      fun j => .inl (congrFun (requestReset_keeps id s.own s.shared).2 j)⟩
    · rcases requestReset_cases id s.own s.shared with
        ⟨_, hs⟩ | ⟨_, _, _, hs, hid⟩ | ⟨_, _, _, hno, _⟩
      · exact ⟨(congrArg Shared.resetRequested hs).trans hq, congrArg Shared.resetRequestId hs⟩
      · exact ⟨hs.trans hq, hid⟩
      · exact absurd hq (by simp [hno])
    · rcases requestReset_cases id s.own s.shared with
        ⟨_, hs⟩ | ⟨_, _, _, hs, hid⟩ | ⟨_, ha, hb, _, _⟩
      · exact ⟨congrArg Shared.resetRequested hs, congrArg Shared.resetRequestId hs⟩
      · exact ⟨hs, hid⟩
      · exact absurd hp (by simp [ha, hb])

/-! ## Loading a record -/

/-- Loading touches the applied values and the mirror, and nothing else. -/
theorem loadRecord_shape (B : Build) (off : Nat) (s : Store) :
    ∃ values stored storedValid, loadRecord B off s =
      { s with
        shared := { s.shared with values := values }
        own := { s.own with stored := stored, storedValid := storedValid } } := by
  unfold loadRecord
  generalize Log.entries s.flash off = es
  induction es generalizing s with
  | nil => exact ⟨s.shared.values, s.own.stored, s.own.storedValid, rfl⟩
  | cons e es ih =>
    obtain ⟨v, st, sv, h⟩ := ih (loadEntry B s e)
    rw [List.foldl_cons, h]
    unfold loadEntry
    cases B.table.index e.1 with
    | none => exact ⟨v, st, sv, rfl⟩
    | some i =>
      dsimp only
      split_ifs with hvol
      · exact ⟨v, st, sv, rfl⟩
      · exact ⟨v, st, sv, rfl⟩

theorem loadScan_shape (B : Build) (sc : Log.Scan) (s : Store) :
    ∃ values stored storedValid source, loadScan B sc s =
      { s with
        shared := { s.shared with values := values }
        own := { s.own with
          stored := stored, storedValid := storedValid, bootSource := source
          nextFree := sc.nextFree } } := by
  unfold loadScan
  cases sc.lastValid with
  | none => exact ⟨s.shared.values, s.own.stored, s.own.storedValid, s.own.bootSource, rfl⟩
  | some off =>
    obtain ⟨v, st, sv, h⟩ := loadRecord_shape B off s
    dsimp only
    rw [h]
    exact ⟨v, st, sv, .flash, rfl⟩

end Params
end Mowgli
