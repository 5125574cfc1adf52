import Mowgli.Bridge.Host

/-!
# Sends — what a send can do to the node

Every send either leaves the flags of the node as they were or, when the port refuses the frame,
clears them: it **lessens** the node. So whatever a flag has promised is still promised after any
number of sends.
-/

namespace Mowgli
namespace Bridge

variable {s t u : Node}

/-- The flags of `t` are flags of `s`, and an intent that is left stands beside the same lift. -/
structure Lessens (s t : Node) : Prop where
  intent : t.bladeIntentAuthorized = true →
    s.bladeIntentAuthorized = true ∧ t.liftDetected = s.liftDetected
  mow : t.mowEnabled = true → s.mowEnabled = true
  before : t.bladeWasEnabledBeforeLift = true → s.bladeWasEnabledBeforeLift = true
  waiting : t.waitingBladeResume = true →
    s.waitingBladeResume = true ∧ t.bladeWasEnabledBeforeLift = s.bladeWasEnabledBeforeLift
  lifted : t.liftDetected = true → s.liftDetected = true
  clearedTime : t.liftClearedTime = s.liftClearedTime
  emergency : t.emergencyActive = s.emergencyActive
  latched : t.fwLatchedEmergency = s.fwLatchedEmergency
  pending : t.emergencyReleasePending = s.emergencyReleasePending
  startup : t.startupReleaseCount = s.startupReleaseCount

/-- The node without its clocks, the blade's telemetry and what it sent. -/
def Node.flags (s : Node) : Node :=
  { s with
    desiredBladeDirection := 0
    lastCmdVelPacketNs := 0
    lastBladeCmdNs := 0
    bladeMismatchSinceNs := 0
    bladeActive := false
    haveBladeStatus := false
    lastBladeStatusSteadyNs := 0
    serialOpen := false
    sent := [] }

namespace Lessens

theorem refl (s : Node) : Lessens s s :=
  ⟨fun h => ⟨h, rfl⟩, id, id, fun h => ⟨h, rfl⟩, id, rfl, rfl, rfl, rfl, rfl⟩

theorem of_flags (h : t.flags = s.flags) : Lessens s t := by
  have hs : Lessens s.flags s.flags := refl _
  have ht : Lessens s.flags t.flags := by rw [h]; exact hs
  exact ⟨ht.intent, ht.mow, ht.before, ht.waiting, ht.lifted, ht.clearedTime, ht.emergency,
    ht.latched, ht.pending, ht.startup⟩

theorem trans (h : Lessens s t) (h' : Lessens t u) : Lessens s u where
  intent hu := by
    obtain ⟨ht, hlift⟩ := h'.intent hu
    obtain ⟨hs, hlift'⟩ := h.intent ht
    exact ⟨hs, hlift.trans hlift'⟩
  mow hu := h.mow (h'.mow hu)
  before hu := h.before (h'.before hu)
  waiting hu := by
    obtain ⟨ht, hbefore⟩ := h'.waiting hu
    obtain ⟨hs, hbefore'⟩ := h.waiting ht
    exact ⟨hs, hbefore.trans hbefore'⟩
  lifted hu := h.lifted (h'.lifted hu)
  clearedTime := h'.clearedTime.trans h.clearedTime
  emergency := h'.emergency.trans h.emergency
  latched := h'.latched.trans h.latched
  pending := h'.pending.trans h.pending
  startup := h'.startup.trans h.startup

theorem cancel (s : Node) : Lessens s s.cancelBladeResume :=
  ⟨fun h => ⟨h, rfl⟩, id, nofun, nofun, id, rfl, rfl, rfl, rfl, rfl⟩

theorem reset (s : Node) : Lessens s s.resetSerialDependentState :=
  ⟨nofun, nofun, nofun, nofun, nofun, rfl, rfl, rfl, rfl, rfl⟩

theorem close (s : Node) : Lessens s s.closeSerialForReconnect :=
  ⟨nofun, nofun, nofun, nofun, nofun, rfl, rfl, rfl, rfl, rfl⟩

end Lessens

/-! ## The port -/

namespace Node

variable (s) (packet : Packet) (w : Sending)

/-- Everything a send can do. -/
theorem sendRawPacket_cases :
    s.sendRawPacket packet w = (false, s) ∨
    s.sendRawPacket packet w = (true, { s with sent := s.sent ++ [packet] }) ∨
    s.sendRawPacket packet w =
      (false, closeSerialForReconnect { s with sent := s.sent ++ [packet] }) := by
  unfold sendRawPacket
  split
  · exact .inl rfl
  · split
    · exact .inr (.inl rfl)
    · exact .inr (.inr rfl)

theorem sendRawPacket_lessens : Lessens s (s.sendRawPacket packet w).2 := by
  rcases sendRawPacket_cases s packet w with h | h | h <;> rw [h]
  · exact .refl s
  · exact .of_flags rfl
  · have hsent : Lessens s { s with sent := s.sent ++ [packet] } := .of_flags rfl
    exact hsent.trans (.close _)

variable {q : Packet}

theorem sendRawPacket_sent (h : q ∈ (s.sendRawPacket packet w).2.sent) :
    q ∈ s.sent ∨ q = packet := by
  rcases sendRawPacket_cases s packet w with hs | hs | hs <;> rw [hs] at h
  · exact .inl h
  · simpa using h
  · have h' : q ∈ s.sent ++ [packet] := h
    simpa using h'

/-! ## The packets -/

variable (path : Path) (on dir : UInt8) (representable : Bool)

theorem sendBladeCommand_lessens : Lessens s (s.sendBladeCommand path on dir w) := by
  have hmow : Lessens s { s with mowEnabled := s.mowEnabled && !w.updateMaintenanceActive } :=
    ⟨fun h => ⟨h, rfl⟩, fun h => (Bool.and_eq_true_iff.1 h).1, id, fun h => ⟨h, rfl⟩, id, rfl, rfl,
      rfl, rfl, rfl⟩
  refine hmow.trans ?_
  have hraw := sendRawPacket_lessens { s with mowEnabled := s.mowEnabled && !w.updateMaintenanceActive }
    (.cmdBlade path (if w.updateMaintenanceActive then 0 else on) dir) w
  refine hraw.trans ?_
  unfold sendBladeCommand
  dsimp only
  cases sendRawPacket { s with mowEnabled := s.mowEnabled && !w.updateMaintenanceActive }
    (.cmdBlade path (if w.updateMaintenanceActive then 0 else on) dir) w with
  | mk written t =>
    cases written with
    | false => exact .cancel t
    | true => exact .of_flags rfl

theorem sendBladeCommand_sent (h : q ∈ (s.sendBladeCommand path on dir w).sent) :
    q ∈ s.sent ∨ q = .cmdBlade path (if w.updateMaintenanceActive then 0 else on) dir := by
  refine sendRawPacket_sent { s with mowEnabled := s.mowEnabled && !w.updateMaintenanceActive } _ w ?_
  revert h
  unfold sendBladeCommand
  dsimp only
  cases sendRawPacket { s with mowEnabled := s.mowEnabled && !w.updateMaintenanceActive }
    (.cmdBlade path (if w.updateMaintenanceActive then 0 else on) dir) w with
  | mk written t => cases written <;> exact id

theorem sendCmdVelPacket_lessens : Lessens s (s.sendCmdVelPacket representable w) := by
  unfold sendCmdVelPacket
  split
  · exact .refl s
  · refine (sendRawPacket_lessens s .cmdVel w).trans ?_
    cases s.sendRawPacket .cmdVel w with
    | mk written t =>
      cases written with
      | false => exact .refl t
      | true => exact .of_flags rfl

theorem sendCmdVelPacket_sent (h : q ∈ (s.sendCmdVelPacket representable w).sent) :
    q ∈ s.sent ∨ q = .cmdVel := by
  unfold sendCmdVelPacket at h
  split at h
  · exact .inl h
  · refine sendRawPacket_sent s .cmdVel w ?_
    revert h
    cases s.sendRawPacket .cmdVel w with
    | mk written t => cases written <;> exact id

/-- A heartbeat uses the release up, and is a send otherwise. -/
theorem sendHeartbeat_lessens :
    Lessens { s with emergencyReleasePending := false } (s.sendHeartbeat w) :=
  sendRawPacket_lessens _ _ w

theorem sendHeartbeat_sent (h : q ∈ (s.sendHeartbeat w).sent) :
    q ∈ s.sent ∨ q = .heartbeat s.emergencyActive s.emergencyReleasePending :=
  sendRawPacket_sent { s with emergencyReleasePending := false } _ w h

end Node

/-! ## The handlers -/

variable (p : Params) (s : Node)

namespace Node

variable {q : Packet}

theorem liftWarning_sent {bits : UInt8} {f : StatusFinds} (h : q ∈ (s.liftWarning bits f).sent) :
    q ∈ s.sent ∨ q = .cmdBlade .lift 0 0 := by
  have hoff (t : Node) (ht : t.sent = s.sent)
      (hq : q ∈ (t.sendBladeCommand .lift 0 0 f.off).sent) :
      q ∈ s.sent ∨ q = .cmdBlade .lift 0 0 := by
    have hsent := t.sendBladeCommand_sent f.off .lift 0 0 hq
    rw [ht, ite_self] at hsent
    exact hsent
  unfold liftWarning at h
  dsimp only at h
  by_cases hlift : s.liftDetected = true
  · rw [if_pos hlift] at h
    split at h <;> exact .inl h
  · rw [if_neg hlift] at h
    by_cases hmow : s.mowEnabled = true
    · rw [if_pos hmow] at h
      refine hoff { s with
        fwLatchedEmergency := false
        waitingBladeResume := false
        liftDetected := true
        bladeWasEnabledBeforeLift := s.mowEnabled } rfl ?_
      split at h <;> exact h
    · rw [if_neg hmow] at h
      split at h <;> exact .inl h

theorem liftCleared_sent (bits : UInt8) (f : StatusFinds) :
    (s.liftCleared bits f).sent = s.sent := by
  unfold liftCleared
  dsimp only
  split
  · split <;> rfl
  · rfl

theorem cancelOnEmergency_sent (bits : UInt8) : (s.cancelOnEmergency p bits).sent = s.sent := by
  unfold cancelOnEmergency
  split <;> rfl

theorem resumeBlade_lessens (bits : UInt8) (f : StatusFinds) :
    Lessens s (s.resumeBlade p bits f) := by
  unfold resumeBlade
  split
  · refine Lessens.trans ?_ (.cancel _)
    split
    · exact s.sendBladeCommand_lessens f.on .resume 1 s.desiredBladeDirection
    · exact .refl s
  · exact .refl s

/-- A resume, and what the node has found by then. -/
theorem resumeBlade_sent {bits : UInt8} {f : StatusFinds} (h : q ∈ (s.resumeBlade p bits f).sent) :
    q ∈ s.sent ∨
      (∃ on dir, q = .cmdBlade .resume on dir) ∧ s.waitingBladeResume = true ∧
        liftActive bits = false ∧ stopActive bits = false ∧ latchActive bits = false ∧
        p.liftBladeResumeDelaySec ≤ seconds f.resumeTime s.liftClearedTime := by
  unfold resumeBlade at h
  split at h
  · rename_i hdue
    simp only [Bool.and_eq_true, Bool.not_eq_true', decide_eq_true_eq] at hdue
    obtain ⟨⟨⟨⟨hwaiting, hlift⟩, hstop⟩, hlatch⟩, hdelay⟩ := hdue
    have h' : q ∈ (if (s.mowEnabled && p.mowingEnabled) = true then
        s.sendBladeCommand .resume 1 s.desiredBladeDirection f.on else s).sent := h
    split at h'
    · rcases s.sendBladeCommand_sent f.on .resume 1 s.desiredBladeDirection h' with hq | hq
      · exact .inl hq
      · exact .inr ⟨⟨_, _, hq⟩, hwaiting, hlift, hstop, hlatch, hdelay⟩
    · exact .inl h'
  · exact .inl h

variable {bits : UInt8} {f : StatusFinds}

theorem handleStatus_warning
    (h : (p.liftRecoveryMode && liftActive bits && !stopActive bits) = true) :
    s.handleStatus p bits f = s.liftWarning bits f := by
  unfold handleStatus
  rw [if_pos h]
  simp only [Bool.and_eq_true, Bool.not_eq_true'] at h
  obtain ⟨⟨hmode, hlift⟩, hstop⟩ := h
  simp [cancelOnEmergency, liftCleared, resumeBlade, hmode, hlift, hstop]

theorem handleStatus_emergency
    (h : (p.liftRecoveryMode && liftActive bits && !stopActive bits) = false) :
    s.handleStatus p bits f =
      (((s.fullEmergency bits).cancelOnEmergency p bits).liftCleared bits f).resumeBlade p bits f := by
  unfold handleStatus
  rw [if_neg (by rw [h]; exact Bool.false_ne_true)]

theorem handleStatus_sent (h : q ∈ (s.handleStatus p bits f).sent) :
    q ∈ s.sent ∨ ∃ path on dir, q = .cmdBlade path on dir := by
  cases hw : p.liftRecoveryMode && liftActive bits && !stopActive bits with
  | true =>
    rw [s.handleStatus_warning p hw] at h
    rcases s.liftWarning_sent h with hq | hq
    · exact .inl hq
    · exact .inr ⟨_, _, _, hq⟩
  | false =>
    rw [s.handleStatus_emergency p hw] at h
    rcases resumeBlade_sent p _ h with hq | ⟨⟨on, dir, hq⟩, -⟩
    · rw [liftCleared_sent, cancelOnEmergency_sent] at hq
      exact .inl hq
    · exact .inr ⟨_, _, _, hq⟩

theorem sendBladeOnWithFreshVelocity_lessens (f : ControlFinds) :
    Lessens s (s.sendBladeOnWithFreshVelocity p f) := by
  have hzero : Lessens s
      (if s.freshCmdVel p f.beforeNs then s else s.sendCmdVelPacket true f.zero) := by
    split
    · exact .refl s
    · exact s.sendCmdVelPacket_lessens f.zero true
  unfold sendBladeOnWithFreshVelocity
  dsimp only
  generalize (if s.freshCmdVel p f.beforeNs then s else s.sendCmdVelPacket true f.zero) = t at hzero ⊢
  split
  · exact hzero.trans (t.sendBladeCommand_lessens f.blade .request 1 _)
  · exact hzero

theorem sendBladeOnWithFreshVelocity_sent {f : ControlFinds}
    (h : q ∈ (s.sendBladeOnWithFreshVelocity p f).sent) :
    q ∈ s.sent ∨ q = .cmdVel ∨ ∃ on dir, q = .cmdBlade .request on dir := by
  have hzero : q ∈ (if s.freshCmdVel p f.beforeNs then s
      else s.sendCmdVelPacket true f.zero).sent → q ∈ s.sent ∨ q = .cmdVel := by
    intro hq
    split at hq
    · exact .inl hq
    · exact s.sendCmdVelPacket_sent f.zero true hq
  have hwiden : q ∈ s.sent ∨ q = .cmdVel →
      q ∈ s.sent ∨ q = .cmdVel ∨ ∃ on dir, q = .cmdBlade .request on dir := by
    rintro (hq | hq)
    · exact .inl hq
    · exact .inr (.inl hq)
  unfold sendBladeOnWithFreshVelocity at h
  dsimp only at h
  generalize (if s.freshCmdVel p f.beforeNs then s else s.sendCmdVelPacket true f.zero) = t
    at h hzero
  split at h
  · rcases t.sendBladeCommand_sent f.blade .request 1 _ h with hq | hq
    · exact hwiden (hzero hq)
    · exact .inr (.inr ⟨_, _, hq⟩)
  · exact hwiden (hzero h)

theorem onMowerControl_lessens (on dir : UInt8) (f : ControlFinds) :
    Lessens (s.takeRequest p on dir) (s.onMowerControl p on dir f) := by
  unfold onMowerControl
  dsimp only
  split
  · exact sendBladeOnWithFreshVelocity_lessens p _ f
  · exact sendBladeCommand_lessens _ f.blade .request _ _

theorem onMowerControl_sent {on dir : UInt8} {f : ControlFinds}
    (h : q ∈ (s.onMowerControl p on dir f).sent) :
    q ∈ s.sent ∨ q = .cmdVel ∨ ∃ on dir, q = .cmdBlade .request on dir := by
  have htaken : (s.takeRequest p on dir).sent = s.sent := by
    unfold takeRequest
    dsimp only
    split <;> rfl
  rw [← htaken]
  unfold onMowerControl at h
  dsimp only at h
  split at h
  · exact sendBladeOnWithFreshVelocity_sent p _ h
  · rcases sendBladeCommand_sent _ f.blade .request _ _ h with hq | hq
    · exact .inl hq
    · exact .inr (.inr ⟨_, _, hq⟩)

theorem bladeReassertTick_lessens (nowNs : Int) (blade : Sending) :
    Lessens s (s.bladeReassertTick p nowNs blade) := by
  have hintent : Lessens s { s with bladeIntentAuthorized :=
      s.bladeIntentAuthorized && !(s.emergencyActive || s.fwLatchedEmergency) } :=
    ⟨fun h => ⟨(Bool.and_eq_true_iff.1 h).1, rfl⟩, id, id, fun h => ⟨h, rfl⟩, id, rfl, rfl, rfl, rfl,
      rfl⟩
  refine hintent.trans ?_
  unfold bladeReassertTick
  dsimp only
  split
  · exact .of_flags rfl
  · split
    · refine Lessens.trans ?_ (sendBladeCommand_lessens _ blade .reassert 1 _)
      split <;> exact .of_flags rfl
    · split <;> exact .of_flags rfl

/-- A repeated request, and what the node has found by then. -/
theorem bladeReassertTick_sent {nowNs : Int} {blade : Sending}
    (h : q ∈ (s.bladeReassertTick p nowNs blade).sent) :
    q ∈ s.sent ∨ (∃ on dir, q = .cmdBlade .reassert on dir) ∧
      s.bladeIntentAuthorized = true ∧ s.liftDetected = false := by
  unfold bladeReassertTick at h
  dsimp only at h
  split at h
  · exact .inl h
  · split at h
    · rename_i hdue
      rcases sendBladeCommand_sent _ blade .reassert 1 _ h with hq | hq
      · refine .inl ?_
        split at hq <;> exact hq
      · simp only [shouldReassertBladeOn, bladeReassertDue, bladeIntentMismatch, reassertInputs,
          Bool.and_eq_true, Bool.not_eq_true'] at hdue
        exact .inr ⟨⟨_, _, hq⟩, hdue.1.1.1.2.1, hdue.1.1.1.1.1.1.2.1⟩
    · refine .inl ?_
      split at h <;> exact h

end Node
end Bridge
end Mowgli
