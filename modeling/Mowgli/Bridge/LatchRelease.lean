import Mowgli.Bridge.Sends

/-!
# LatchRelease — who asked for the release in a heartbeat

The release in a heartbeat is one flag that is used up by the next one. It is set by the
operator, by a status that reports a latch under a lift, and by the timer for the first five
heartbeats after a start. `Owes` is the account of it.

The latch bit carries no cause. A latch that a STOP raised is released like any other when the
robot is lifted.
-/

namespace Mowgli
namespace Bridge

open Trace

/-! ## What the history says -/

namespace Entry

def isTick (e : Entry) : Bool :=
  match e.event with
  | .heartbeatTick _ _ _ => true
  | _ => false

/-- An `EmergencyStop` request that releases. -/
def isRelease (e : Entry) : Bool :=
  match e.event with
  | .emergencyStop emergency _ => emergency == 0
  | _ => false

/-- An `EmergencyStop` request that stops. -/
def isHostStop (e : Entry) : Bool :=
  match e.event with
  | .emergencyStop emergency _ => emergency != 0
  | _ => false

/-- A status with LIFT and LATCH set and STOP clear. -/
def isLiftedLatch (e : Entry) : Bool :=
  match e.event with
  | .status bits _ => liftActive bits && latchActive bits && !stopActive bits
  | _ => false

def reportsStop (e : Entry) : Bool :=
  match e.event with
  | .status bits _ => stopActive bits
  | _ => false

def reportsNoLatch (e : Entry) : Bool :=
  match e.event with
  | .status bits _ => !latchActive bits
  | _ => false

def beats (e : Entry) : Bool :=
  e.sent.any fun
    | .heartbeat _ _ => true
    | _ => false

end Entry

/-- How many times the heartbeat timer has run. -/
def ticks (past : List Entry) : Nat := past.countP (·.isTick)

/-- Since the last status that reported the latch clear, or since the start, no status reported
    STOP and no host emergency was requested. -/
def Unstopped : List Entry → Prop
  | [] => True
  | e :: past =>
    e.reportsNoLatch = true ∨ (e.reportsStop = false ∧ e.isHostStop = false ∧ Unstopped past)

variable (p : Params)

/-- Since the last heartbeat, the operator released, or a status reported a latch under a lift
    that lift recovery looks after. -/
def Owes (log : List Entry) : Prop :=
  Since (fun e => e.beats = false)
    (fun e _ => e.isRelease = true ∨ (p.liftRecoveryMode = true ∧ e.isLiftedLatch = true)) log

/-- The same, of a latch that no STOP and no host emergency can have raised. -/
def OwesLift (log : List Entry) : Prop :=
  Since (fun e => e.beats = false)
    (fun e past => e.isRelease = true ∨ (e.isLiftedLatch = true ∧ Unstopped (e :: past))) log

def Entry.asksRelease (e : Entry) : Prop := ∃ requested, .heartbeat requested true ∈ e.sent

/-! ## The flag -/

namespace Node

variable (s : Node) {bits : UInt8} {f : StatusFinds}

theorem liftWarning_pending :
    (s.liftWarning bits f).emergencyReleasePending =
      (s.emergencyReleasePending || latchActive bits) := by
  have hoff (t : Node) : (t.sendBladeCommand .lift 0 0 f.off).emergencyReleasePending =
      t.emergencyReleasePending := (t.sendBladeCommand_lessens f.off .lift 0 0).pending
  unfold liftWarning
  dsimp only
  cases s.liftDetected with
  | true => cases latchActive bits <;> simp
  | false =>
    cases s.mowEnabled with
    | true => cases latchActive bits <;> simp [hoff]
    | false => cases latchActive bits <;> simp

theorem liftCleared_pending :
    (s.liftCleared bits f).emergencyReleasePending = s.emergencyReleasePending := by
  unfold liftCleared
  dsimp only
  split
  · split <;> rfl
  · rfl

theorem cancelOnEmergency_pending :
    (s.cancelOnEmergency p bits).emergencyReleasePending = s.emergencyReleasePending := by
  unfold cancelOnEmergency
  split <;> rfl

theorem handleStatus_pending (h : (s.handleStatus p bits f).emergencyReleasePending = true) :
    s.emergencyReleasePending = true ∨
      (p.liftRecoveryMode = true ∧
        (liftActive bits && latchActive bits && !stopActive bits) = true) := by
  cases hw : p.liftRecoveryMode && liftActive bits && !stopActive bits with
  | true =>
    rw [s.handleStatus_warning p hw, liftWarning_pending] at h
    simp only [Bool.and_eq_true, Bool.not_eq_true'] at hw
    obtain ⟨⟨hmode, hlift⟩, hstop⟩ := hw
    rcases (Bool.or_eq_true _ _).mp h with hpending | hlatch
    · exact .inl hpending
    · exact .inr ⟨hmode, by simp [hlift, hlatch, hstop]⟩
  | false =>
    rw [s.handleStatus_emergency p hw, (resumeBlade_lessens p _ bits f).pending,
      liftCleared_pending, cancelOnEmergency_pending] at h
    exact .inl h

theorem handleStatus_startup :
    (s.handleStatus p bits f).startupReleaseCount = s.startupReleaseCount := by
  have hoff (t : Node) : (t.sendBladeCommand .lift 0 0 f.off).startupReleaseCount =
      t.startupReleaseCount := (t.sendBladeCommand_lessens f.off .lift 0 0).startup
  cases hw : p.liftRecoveryMode && liftActive bits && !stopActive bits with
  | true =>
    rw [s.handleStatus_warning p hw]
    unfold liftWarning
    dsimp only
    cases s.liftDetected with
    | true => cases latchActive bits <;> simp
    | false =>
      cases s.mowEnabled with
      | true => cases latchActive bits <;> simp [hoff]
      | false => cases latchActive bits <;> simp
  | false =>
    rw [s.handleStatus_emergency p hw, (resumeBlade_lessens p _ bits f).startup]
    unfold liftCleared cancelOnEmergency
    dsimp only
    split <;> split <;> first | rfl | (split <;> rfl)

theorem takeRequest_pending (on dir : UInt8) :
    (s.takeRequest p on dir).emergencyReleasePending = s.emergencyReleasePending := by
  unfold takeRequest
  dsimp only
  split <;> rfl

theorem takeRequest_startup (on dir : UInt8) :
    (s.takeRequest p on dir).startupReleaseCount = s.startupReleaseCount := by
  unfold takeRequest
  dsimp only
  split <;> rfl

end Node

/-! ## The account -/

/-- A pending release is owed, and the timer's own releases are counted. -/
structure Accounted (s : Node) (past : List Entry) : Prop where
  pending : s.emergencyReleasePending = true → Owes p past
  startup : s.startupReleaseCount = 5 - ticks past

/-- Every release in a heartbeat is one of the timer's first five, or is owed. -/
def ReleaseOwed (e : Entry) (past : List Entry) : Prop :=
  e.asksRelease → (e.isTick = true ∧ ticks past < 5) ∨ e.isRelease = true ∨ Owes p past

theorem Entry.beats_false {e : Entry} (h : ∀ q ∈ e.sent, ∀ a b, q ≠ .heartbeat a b) :
    e.beats = false := by
  unfold Entry.beats
  rw [List.any_eq_false]
  intro q hq hbeat
  cases q with
  | heartbeat a b => exact h _ hq a b rfl
  | _ => cases hbeat

theorem Entry.not_asks {e : Entry} (h : ∀ q ∈ e.sent, ∀ a b, q ≠ .heartbeat a b) :
    ¬e.asksRelease := by
  rintro ⟨requested, hq⟩
  exact h _ hq _ _ rfl

variable {p} {s s' : Node} {past : List Entry} {e : Entry}

/-- A handler without a heartbeat. -/
theorem Accounted.quiet (h : Accounted p s past)
    (hsent : ∀ q ∈ e.sent, ∀ a b, q ≠ .heartbeat a b) (htick : e.isTick = false)
    (hpending : s'.emergencyReleasePending = true → s.emergencyReleasePending = true ∨
      (p.liftRecoveryMode = true ∧ e.isLiftedLatch = true))
    (hstartup : s'.startupReleaseCount = s.startupReleaseCount) :
    Accounted p s' (e :: past) ∧ ReleaseOwed p e past := by
  refine ⟨⟨?_, ?_⟩, fun hask => absurd hask (Entry.not_asks hsent)⟩
  · intro hp
    rcases hpending hp with hp | hlift
    · exact .inr ⟨Entry.beats_false hsent, h.pending hp⟩
    · exact .inl (.inr hlift)
  · have hticks : ticks (e :: past) = ticks past := by simp [ticks, htick]
    rw [hstartup, hticks, h.startup]

theorem Accounted.stop (h : Accounted p s past) (hs : s.sent = []) {emergency : UInt8}
    {beat : Sending} (hevent : e.event = .emergencyStop emergency beat)
    (hsent : e.sent = (s.onEmergencyStop emergency beat).sent) :
    Accounted p (s.onEmergencyStop emergency beat) (e :: past) ∧ ReleaseOwed p e past := by
  have hticks : ticks (e :: past) = ticks past := by simp [ticks, Entry.isTick, hevent]
  obtain ⟨t, ht, hrelease, hempty, hstartup⟩ : ∃ t : Node,
      s.onEmergencyStop emergency beat = t.sendHeartbeat beat ∧
      (t.emergencyReleasePending = true → emergency = 0 ∨ s.emergencyReleasePending = true) ∧
      t.sent = [] ∧ t.startupReleaseCount = s.startupReleaseCount := by
    unfold Node.onEmergencyStop
    refine ⟨_, rfl, ?_, ?_, ?_⟩
    · intro hp
      split at hp
      · exact .inr hp
      · rename_i hzero
        exact .inl (by simpa using hzero)
    · split <;> exact hs
    · split <;> rfl
  rw [ht] at hsent ⊢
  have hless := t.sendHeartbeat_lessens beat
  refine ⟨⟨?_, ?_⟩, ?_⟩
  · intro hp
    rw [hless.pending] at hp
    cases hp
  · rw [hless.startup, hticks, ← h.startup]
    exact hstartup
  · rintro ⟨requested, hq⟩
    rw [hsent] at hq
    rcases t.sendHeartbeat_sent beat hq with hq | hq
    · rw [hempty] at hq
      cases hq
    · injection hq with _ hflag
      rcases hrelease hflag.symm with rfl | hp
      · exact .inr (.inl (by simp [Entry.isRelease, hevent]))
      · exact .inr (.inr (h.pending hp))

theorem Accounted.tick (h : Accounted p s past) (hs : s.sent = []) {beat blade : Sending}
    {nowNs : Int} (hevent : e.event = .heartbeatTick beat nowNs blade)
    (hsent : e.sent = (s.heartbeatTick p beat nowNs blade).sent) :
    Accounted p (s.heartbeatTick p beat nowNs blade) (e :: past) ∧ ReleaseOwed p e past := by
  have htick : e.isTick = true := by simp [Entry.isTick, hevent]
  have hticks : ticks (e :: past) = ticks past + 1 := by simp [ticks, htick]
  obtain ⟨t, ht, hrelease, hempty, hstartup⟩ : ∃ t : Node,
      s.heartbeatTick p beat nowNs blade = (t.sendHeartbeat beat).bladeReassertTick p nowNs blade ∧
      (t.emergencyReleasePending = true →
        0 < s.startupReleaseCount ∨ s.emergencyReleasePending = true) ∧
      t.sent = [] ∧ t.startupReleaseCount = s.startupReleaseCount - 1 := by
    unfold Node.heartbeatTick
    refine ⟨_, rfl, ?_, ?_, ?_⟩
    · intro hp
      split at hp
      · rename_i hcount
        exact .inl hcount
      · exact .inr hp
    · split <;> exact hs
    · split
      · rfl
      · omega
  rw [ht] at hsent ⊢
  have hless := t.sendHeartbeat_lessens beat
  refine ⟨⟨?_, ?_⟩, ?_⟩
  · intro hp
    rw [(Node.bladeReassertTick_lessens p _ nowNs blade).pending, hless.pending] at hp
    cases hp
  · rw [(Node.bladeReassertTick_lessens p _ nowNs blade).startup, hless.startup, hticks]
    show t.startupReleaseCount = _
    rw [hstartup, h.startup]
    omega
  · rintro ⟨requested, hq⟩
    rw [hsent] at hq
    rcases Node.bladeReassertTick_sent p _ hq with hq | ⟨⟨on, dir, hq⟩, -⟩
    · rcases t.sendHeartbeat_sent beat hq with hq | hq
      · rw [hempty] at hq
        cases hq
      · injection hq with _ hflag
        rcases hrelease hflag.symm with hcount | hp
        · rw [h.startup] at hcount
          exact .inl ⟨htick, by omega⟩
        · exact .inr (.inr (h.pending hp))
    · cases hq

/-- Any one handler. -/
theorem Accounted.step (h : Accounted p s past) (ev : Event) :
    Accounted p (s.step p ev) (⟨ev, s, (s.step p ev).sent⟩ :: past) ∧
      ReleaseOwed p ⟨ev, s, (s.step p ev).sent⟩ past := by
  have h' : Accounted p { s with sent := [] } past := ⟨h.pending, h.startup⟩
  cases ev with
  | status bits f =>
    refine h'.quiet ?_ rfl (Node.handleStatus_pending p _) (Node.handleStatus_startup p _)
    intro q hq a b hbeat
    rcases Node.handleStatus_sent p _ hq with hq | ⟨path, on, dir, hq⟩
    · cases hq
    · rw [hq] at hbeat
      cases hbeat
  | bladeStatus isActive receiptNs => exact h'.quiet nofun rfl .inl rfl
  | mowerControl on dir f =>
    have hless := Node.onMowerControl_lessens p { s with sent := [] } on dir f
    refine h'.quiet ?_ rfl (fun hp => .inl ?_)
      (hless.startup.trans (Node.takeRequest_startup p _ on dir))
    · intro q hq a b hbeat
      rcases Node.onMowerControl_sent p _ hq with hq | hq | ⟨_, _, hq⟩
      · cases hq
      · rw [hq] at hbeat
        cases hbeat
      · rw [hq] at hbeat
        cases hbeat
    · rw [← Node.takeRequest_pending p { s with sent := [] } on dir, ← hless.pending]
      exact hp
  | emergencyStop emergency beat => exact h'.stop rfl rfl rfl
  | heartbeatTick beat nowNs blade => exact h'.tick rfl rfl rfl
  | cmdVel representable w =>
    have hless := Node.sendCmdVelPacket_lessens { s with sent := [] } w representable
    refine h'.quiet ?_ rfl (fun hp => .inl ?_) hless.startup
    · intro q hq a b hbeat
      rcases Node.sendCmdVelPacket_sent _ w representable hq with hq | hq
      · cases hq
      · rw [hq] at hbeat
        cases hbeat
    · rw [← hless.pending]
      exact hp
  | sendOther w =>
    have hless := Node.sendRawPacket_lessens { s with sent := [] } .other w
    refine h'.quiet ?_ rfl (fun hp => .inl ?_) hless.startup
    · intro q hq a b hbeat
      rcases Node.sendRawPacket_sent _ .other w hq with hq | hq
      · cases hq
      · rw [hq] at hbeat
        cases hbeat
    · rw [← hless.pending]
      exact hp
  | reopen =>
    have hstep : (({ s with sent := [] } : Node).apply p .reopen).sent = [] := by
      unfold Node.apply
      dsimp only
      split <;> rfl
    refine h'.quiet (fun q hq => ?_) rfl (fun hp => .inl ?_) ?_
    · have hq' : q ∈ (({ s with sent := [] } : Node).apply p .reopen).sent := hq
      rw [hstep] at hq'
      cases hq'
    · unfold Node.step Node.apply at hp
      dsimp only at hp
      split at hp <;> exact hp
    · unfold Node.step Node.apply
      dsimp only
      split <;> rfl
  | linkLost =>
    have hstep : (({ s with sent := [] } : Node).apply p .linkLost).sent = [] := by
      unfold Node.apply
      dsimp only
      split <;> rfl
    refine h'.quiet (fun q hq => ?_) rfl (fun hp => .inl ?_) ?_
    · have hq' : q ∈ (({ s with sent := [] } : Node).apply p .linkLost).sent := hq
      rw [hstep] at hq'
      cases hq'
    · unfold Node.step Node.apply at hp
      dsimp only at hp
      split at hp <;> exact hp
    · unfold Node.step Node.apply
      dsimp only
      split <;> rfl

/-- Every release is the timer's, the operator's or the lift recovery's. -/
theorem releases_accounted (serialOpen : Bool) (es : List Event) :
    Always (ReleaseOwed p) (history p serialOpen es) := by
  have hstart : Accounted p { serialOpen := serialOpen } [] := ⟨(by intro h; cases h), rfl⟩
  exact History.run_always (fun _ _ ev h => h.step ev) hstart es

/-- The lift branch sees no latch that a STOP or a host emergency can have raised, and what the
    timer asks for after the start is owed anyhow. -/
structure Owned (p : Params) (e : Entry) (past : List Entry) : Prop where
  lift : p.liftRecoveryMode = true → e.isLiftedLatch = true → Unstopped past
  startup : e.isTick = true → ticks past < 5 → OwesLift past

theorem Entry.unstopped (h : e.isLiftedLatch = true) (hpast : Unstopped past) :
    Unstopped (e :: past) := by
  refine .inr ?_
  unfold Entry.isLiftedLatch at h
  unfold Entry.reportsStop Entry.isHostStop
  cases hevent : e.event with
  | status bits f =>
    rw [hevent] at h
    simp only [Bool.and_eq_true, Bool.not_eq_true'] at h
    exact ⟨h.2, rfl, hpast⟩
  | _ =>
    rw [hevent] at h
    cases h

theorem Owes.owned {log : List Entry} (hall : Always (Owned p) log) (h : Owes p log) :
    OwesLift log := by
  induction log with
  | nil => exact h
  | cons e past ih =>
    rcases h with (hrelease | ⟨hmode, hlift⟩) | ⟨hbeats, hpast⟩
    · exact .inl (.inl hrelease)
    · exact .inl (.inr ⟨hlift, Entry.unstopped hlift (hall.1.lift hmode hlift)⟩)
    · exact .inr ⟨hbeats, ih hall.2 hpast⟩

/-- **Where the latch is the lift's own, every release is owed.** -/
theorem releases_owned (serialOpen : Bool) (es : List Event)
    (howned : Always (Owned p) (history p serialOpen es)) :
    Always (fun e past => e.asksRelease → e.isRelease = true ∨ OwesLift past)
      (history p serialOpen es) := by
  have hall := releases_accounted (p := p) serialOpen es
  generalize history p serialOpen es = log at howned hall
  induction log with
  | nil => trivial
  | cons e past ih =>
    refine ⟨fun hask => ?_, ih howned.2 hall.2⟩
    rcases hall.1 hask with ⟨htick, hfirst⟩ | hrelease | howes
    · exact .inr (howned.1.startup htick hfirst)
    · exact .inl hrelease
    · exact .inr (howes.owned howned.2)

/-! ## Releases nobody asked for -/

instance (e : Entry) : Decidable e.asksRelease :=
  decidable_of_iff ((Packet.heartbeat true true ∈ e.sent) ∨ (Packet.heartbeat false true ∈ e.sent))
    ⟨fun h => h.elim (fun h => ⟨true, h⟩) (fun h => ⟨false, h⟩), fun ⟨requested, h⟩ => by
      cases requested with
      | true => exact .inl h
      | false => exact .inr h⟩

instance Unstopped.decide : ∀ log, Decidable (Unstopped log)
  | [] => isTrue trivial
  | _ :: past =>
    have : Decidable (Unstopped past) := Unstopped.decide past
    inferInstanceAs (Decidable (_ ∨ _))

instance (log : List Entry) : Decidable (OwesLift log) :=
  inferInstanceAs (Decidable (Since _ _ log))

def recovering : Params :=
  { liftRecoveryMode := true, liftBladeResumeDelaySec := 1, mowingEnabled := true }

instance (p : Params) (e : Entry) (past : List Entry) : Decidable (Owned p e past) :=
  decidable_of_iff ((p.liftRecoveryMode = true → e.isLiftedLatch = true → Unstopped past) ∧
      (e.isTick = true → ticks past < 5 → OwesLift past))
    ⟨fun h => ⟨h.1, h.2⟩, fun h => ⟨h.lift, h.startup⟩⟩

/-- A robot that is held up while the bridge starts, put down and lifted again. -/
theorem releases_owned_lifted :
    Always (fun e past => e.asksRelease → e.isRelease = true ∨ OwesLift past)
      (history recovering true ((List.replicate 5 [.status 5 {}, .heartbeatTick {} 0 {}]).flatten ++
        [.status 0 {}, .status 4 {}, .status 5 {}, .heartbeatTick {} 0 {}])) :=
  releases_owned true _ (by decide +kernel)

/-- The first five heartbeats, a STOP that latches, and a lift after it. -/
def stopThenLift : List Event :=
  List.replicate 5 (.heartbeatTick {} 0 {}) ++
    [.status 3 {}, .status 1 {}, .status 5 {}, .heartbeatTick {} 0 {}]

/-- Nobody asked for the releases of the first five heartbeats, and the one after the lift is of
    a latch that STOP raised. -/
theorem releases_not_owed :
    ¬∀ (p : Params) (serialOpen : Bool) (es : List Event), p.liftRecoveryMode = true →
      Always (fun e past => e.asksRelease → e.isRelease = true ∨ OwesLift past)
        (history p serialOpen es) := by
  intro h
  have hlast := (h recovering true stopThenLift rfl).1
  revert hlast
  decide +kernel

end Bridge
end Mowgli
