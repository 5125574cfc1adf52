import Mowgli.OpenMower.Node

/-!
# Gates — what a handler sends and what it keeps

A closed gate turns a duty into zero: the slew passes a zero target on at once, the split of two
zeros is zero, and the speed loop answers a zero target with a zero duty, whatever the integrals
and the telemetry hold. Over floats that is a fact about zero (`Zeros`), and about nothing else.

What a control tick changes of the rest is the release slots, one for a heartbeat (`Beats`).
-/

namespace Mowgli
namespace OpenMower

variable {D : Type} (d : Arith D) (p : Params D)

/-- What the gates rely on of the format: zero is zero through the sign of a motor, and through
    the wheel split where that is finite. -/
structure Zeros : Prop where
  zero : d.eq (d.lit 0) (d.lit 0) = true
  sign : d.eq (d.mul (d.lit 1) (d.lit 0)) (d.lit 0) = true ∧
    d.eq (d.mul (d.lit (-1)) (d.lit 0)) (d.lit 0) = true
  left : ∀ x, d.isFinite (d.sub (d.lit 0) (d.mul x (d.lit 0))) = true →
    d.eq (d.sub (d.lit 0) (d.mul x (d.lit 0))) (d.lit 0) = true
  right : ∀ x, d.isFinite (d.add (d.lit 0) (d.mul x (d.lit 0))) = true →
    d.eq (d.add (d.lit 0) (d.mul x (d.lit 0))) (d.lit 0) = true


def Sent.isHeartbeat : Sent D → Bool
  | .heartbeat _ _ => true
  | .duty _ _ => false

/-- `t` is `s` after `n` more heartbeats, as far as the gates and the emergency go. -/
structure Beats (s t : Node D) (n : Nat) : Prop where
  host : t.emergency.hostEmergency = s.emergency.hostEmergency
  board : t.emergency.boardEmergency = s.emergency.boardEmergency
  left : t.emergency.releaseHeartbeatsLeft = s.emergency.releaseHeartbeatsLeft - n
  llStatus : t.llLastStatus = s.llLastStatus
  cmdVel : t.cmdVelStamp = s.cmdVelStamp
  mode : t.currentMode = s.currentMode
  hlStatus : t.hlStatusStamp = s.hlStatusStamp
  request : t.mowRequested = s.mowRequested
  sent : t.sent.countP Sent.isHeartbeat = s.sent.countP Sent.isHeartbeat + n

variable {d p} {s t u : Node D} {m n : Nat}

theorem Beats.trans (h : Beats s t m) (h' : Beats t u n) : Beats s u (m + n) where
  host := h'.host.trans h.host
  board := h'.board.trans h.board
  left := by rw [h'.left, h.left, Nat.sub_sub]
  llStatus := h'.llStatus.trans h.llStatus
  cmdVel := h'.cmdVel.trans h.cmdVel
  mode := h'.mode.trans h.mode
  hlStatus := h'.hlStatus.trans h.hlStatus
  request := h'.request.trans h.request
  sent := by rw [h'.sent, h.sent, Nat.add_assoc]

namespace EmergencyTracker

end EmergencyTracker

theorem wheelsMayRun_eq_true {emergency llLinkAlive cmdFresh : Bool} {hlMode : UInt8} :
    wheelsMayRun emergency llLinkAlive hlMode cmdFresh = true ↔
      emergency = false ∧ llLinkAlive = true ∧ hlMode ≠ HL_MODE_IDLE ∧ cmdFresh = true := by
  unfold wheelsMayRun
  cases emergency <;> cases llLinkAlive <;> cases cmdFresh <;> simp

theorem bladeMayRun_eq_true {i : BladeInputs} :
    bladeMayRun i = true ↔
      i.requested = true ∧ i.mowingEnabled = true ∧ i.emergency = false ∧ i.llLinkAlive = true ∧
      i.hlStatusFresh = true ∧ i.updateMaintenance = false ∧
      (i.hlMode = HL_MODE_AUTONOMOUS ∨ i.hlMode = HL_MODE_MANUAL_MOWING) := by
  obtain ⟨requested, enabled, emergency, alive, mode, fresh, maintenance⟩ := i
  unfold bladeMayRun
  cases requested <;> cases enabled <;> cases emergency <;> cases alive <;> cases fresh <;>
    cases maintenance <;> simp

/-! ## A closed gate -/

theorem limitMotionCommandSlew_zero (hz : Zeros d) (previous dt accel decel : D) :
    limitMotionCommandSlew d (d.lit 0) previous dt accel decel = d.lit 0 := by
  unfold limitMotionCommandSlew
  rw [hz.zero]
  rfl

theorem splitTwist_zero (hz : Zeros d) (track : D) :
    let targets := splitTwist d (d.lit 0) (d.lit 0) track
    (d.isFinite targets.leftMps = true → d.eq targets.leftMps (d.lit 0) = true) ∧
      (d.isFinite targets.rightMps = true → d.eq targets.rightMps (d.lit 0) = true) :=
  ⟨hz.left _, hz.right _⟩

theorem wheelUpdate_zero {gains : WheelLoopGains D} {integral target measured dt : D}
    (h : d.isFinite target = true → d.eq target (d.lit 0) = true) :
    wheelUpdate d gains integral target measured dt = (d.lit 0, d.lit 0) := by
  unfold wheelUpdate
  cases hfin : d.isFinite target with
  | false => rfl
  | true =>
    rw [h hfin]
    rfl

theorem motorSign_zero (hz : Zeros d) (motor : Motor) :
    d.eq (d.mul (Node.motorSign d p motor) (d.lit 0)) (d.lit 0) = true := by
  have hone : ∀ inverted : Bool,
      d.eq (d.mul (if inverted then d.lit (-1) else d.lit 1) (d.lit 0)) (d.lit 0) = true := by
    intro inverted
    cases inverted with
    | true => exact hz.sign.2
    | false => exact hz.sign.1
  cases motor with
  | left => exact hone p.leftMotorInverted
  | right => exact hone p.rightMotorInverted
  | mow => exact hz.sign.1

namespace Node

variable (s : Node D) {f : TickFinds D} {q : Sent D}

theorem driveWheels_sent (hz : Zeros d) {dt : D} {allowed : Bool} {measured : D × D}
    (hq : q ∈ (s.driveWheels d p dt allowed measured).sent) :
    q ∈ s.sent ∨ ∃ motor duty, q = .duty motor duty ∧ motor ≠ .mow ∧
      (allowed = false → d.eq duty (d.lit 0) = true) := by
  rcases List.mem_append.mp hq with hq | hq
  · exact .inl hq
  · refine .inr ?_
    rcases List.mem_cons.mp hq with rfl | hq
    · refine ⟨_, _, rfl, nofun, ?_⟩
      rintro rfl
      show d.eq (d.mul _ (wheelUpdate d _ _ (splitTwist d (limitMotionCommandSlew d (d.lit 0) _ _ _
        _) (limitMotionCommandSlew d (d.lit 0) _ _ _ _) _).leftMps _ _).1) _ = true
      rw [limitMotionCommandSlew_zero hz, limitMotionCommandSlew_zero hz,
        wheelUpdate_zero (splitTwist_zero hz _).1]
      exact motorSign_zero hz .left
    · rcases List.mem_cons.mp hq with rfl | hq
      · refine ⟨_, _, rfl, nofun, ?_⟩
        rintro rfl
        show d.eq (d.mul _ (wheelUpdate d _ _ (splitTwist d (limitMotionCommandSlew d (d.lit 0) _ _
          _ _) (limitMotionCommandSlew d (d.lit 0) _ _ _ _) _).rightMps _ _).1) _ = true
        rw [limitMotionCommandSlew_zero hz, limitMotionCommandSlew_zero hz,
          wheelUpdate_zero (splitTwist_zero hz _).2]
        exact motorSign_zero hz .right
      · cases hq

theorem driveBlade_sent {allowed : Bool} (hq : q ∈ (s.driveBlade d p allowed).sent) :
    q ∈ s.sent ∨ ∃ duty, q = .duty .mow duty ∧ (allowed = false → duty = d.lit 0) := by
  unfold driveBlade at hq
  split at hq
  · exact .inl hq
  · rcases List.mem_append.mp hq with hq | hq
    · exact .inl hq
    · rw [List.mem_singleton] at hq
      refine .inr ⟨_, hq, ?_⟩
      rintro rfl
      rfl

/-! ## What a handler keeps -/

theorem lowlevelSend_beats (written : Bool) : Beats s (s.lowlevelSend written) 0 := by
  constructor <;> rfl

theorem sendHeartbeat_beats (written : Bool) : Beats s (s.sendHeartbeat written) 1 := by
  constructor
  case sent => exact List.countP_append
  all_goals rfl

theorem sendDuty_beats (motor : Motor) (duty : D) : Beats s (s.sendDuty motor duty) 0 := by
  constructor
  case sent => exact List.countP_append
  all_goals rfl

theorem poll_beats : Beats s (s.poll d f) 0 := by
  unfold poll
  dsimp only
  split <;> constructor <;> rfl

theorem driveWheels_beats (dt : D) (allowed : Bool) (measured : D × D) :
    Beats s (s.driveWheels d p dt allowed measured) 0 := by
  constructor
  case sent => exact List.countP_append
  all_goals rfl

theorem driveBlade_beats (allowed : Bool) : Beats s (s.driveBlade d p allowed) 0 := by
  unfold driveBlade
  split
  · constructor <;> rfl
  · exact s.sendDuty_beats _ _

theorem sendHeartbeat_sent {written : Bool} (hq : q ∈ (s.sendHeartbeat written).sent) :
    q ∈ s.sent ∨ q = .heartbeat s.emergency.hostEmergency
      (decide (0 < s.emergency.releaseHeartbeatsLeft)) := by
  rcases List.mem_append.mp hq with hq | hq
  · exact .inl hq
  · exact .inr (List.mem_singleton.mp hq)

/-! ## The control tick -/

variable (d p) in
/-- The tick up to its heartbeat. -/
def drive (f : TickFinds D) : Node D :=
  let t := s.poll d f
  let t' := t.driveWheels d p (s.dtS d p f.steadyNow) (t.wheelsAllowed d p f && f.drivesOk)
    f.measured
  t'.driveBlade d p (t.bladeAllowed d p f)

theorem controlTick_eq : s.controlTick d p f =
    if (s.drive d p f).controlTicks % p.ticksPerHeartbeat = 0 then
      (s.drive d p f).sendHeartbeat f.written
    else s.drive d p f := rfl

theorem drive_beats : Beats s (s.drive d p f) 0 :=
  ((s.poll_beats).trans (driveWheels_beats _ _ _ _)).trans (driveBlade_beats _ _)

theorem controlTick_beats : ∃ n, n ≤ 1 ∧ Beats s (s.controlTick d p f) n := by
  rw [controlTick_eq]
  split
  · exact ⟨1, Nat.le_refl 1, (s.drive_beats).trans (sendHeartbeat_beats _ _)⟩
  · exact ⟨0, Nat.zero_le 1, s.drive_beats⟩

/-- The gates read nothing that the odometry changes. -/
theorem poll_gates : (s.poll d f).wheelsAllowed d p f = s.wheelsAllowed d p f ∧
    (s.poll d f).bladeAllowed d p f = s.bladeAllowed d p f := by
  unfold poll
  dsimp only
  split <;> exact ⟨rfl, rfl⟩

theorem drive_sent (hz : Zeros d) (hq : q ∈ (s.drive d p f).sent) :
    q ∈ s.sent ∨
      (∃ motor duty, q = .duty motor duty ∧ motor ≠ .mow ∧
        (s.wheelsAllowed d p f = false → d.eq duty (d.lit 0) = true)) ∨
      ∃ duty, q = .duty .mow duty ∧ (s.bladeAllowed d p f = false → duty = d.lit 0) := by
  obtain ⟨hwheels, hblade⟩ := s.poll_gates (d := d) (p := p) (f := f)
  rcases driveBlade_sent _ hq with hq | ⟨duty, rfl, hduty⟩
  · rcases driveWheels_sent _ hz hq with hq | ⟨motor, duty, rfl, hmotor, hduty⟩
    · refine .inl ?_
      unfold poll at hq
      dsimp only at hq
      split at hq <;> exact hq
    · refine .inr (.inl ⟨motor, duty, rfl, hmotor, fun hclosed => hduty ?_⟩)
      rw [hwheels, hclosed]
      rfl
  · exact .inr (.inr ⟨duty, rfl, fun hclosed => hduty (hblade.trans hclosed)⟩)

theorem controlTick_sent (hz : Zeros d) (hq : q ∈ (s.controlTick d p f).sent) :
    q ∈ s.sent ∨
      (∃ motor duty, q = .duty motor duty ∧ motor ≠ .mow ∧
        (s.wheelsAllowed d p f = false → d.eq duty (d.lit 0) = true)) ∨
      (∃ duty, q = .duty .mow duty ∧ (s.bladeAllowed d p f = false → duty = d.lit 0)) ∨
      q = .heartbeat s.emergency.hostEmergency
        (decide (0 < s.emergency.releaseHeartbeatsLeft)) := by
  have hdrive (hq : q ∈ (s.drive d p f).sent) := s.drive_sent hz hq
  rw [controlTick_eq] at hq
  split at hq
  · rcases sendHeartbeat_sent _ hq with hq | rfl
    · rcases hdrive hq with hq | hq | hq
      · exact .inl hq
      · exact .inr (.inl hq)
      · exact .inr (.inr (.inl hq))
    · have hb := s.drive_beats (d := d) (p := p) (f := f)
      rw [hb.host, hb.left]
      exact .inr (.inr (.inr rfl))
  · rcases hdrive hq with hq | hq | hq
    · exact .inl hq
    · exact .inr (.inl hq)
    · exact .inr (.inr (.inl hq))

/-! ## The operator's stop -/

theorem onEmergencyStop_sent {emergency : UInt8} {written : Bool}
    (hq : q ∈ (s.onEmergencyStop d p emergency written).sent) :
    q ∈ s.sent ∨ (∃ motor, q = .duty motor (d.lit 0)) ∨
      q = .heartbeat (emergency != 0) (emergency == 0) := by
  unfold onEmergencyStop at hq
  dsimp only at hq
  rcases sendHeartbeat_sent _ hq with hq | rfl
  · split at hq
    · have hdrives : q ∈ ((({ s with emergency := s.emergency.requestEmergency } : Node D).sendDuty
          .left (d.lit 0)).sendDuty .right (d.lit 0)).sent →
          q ∈ s.sent ∨ ∃ motor, q = .duty motor (d.lit 0) := by
        intro hq
        rcases List.mem_append.mp hq with hq | hq
        · rcases List.mem_append.mp hq with hq | hq
          · exact .inl hq
          · exact .inr ⟨.left, List.mem_singleton.mp hq⟩
        · exact .inr ⟨.right, List.mem_singleton.mp hq⟩
      split at hq
      · rcases List.mem_append.mp hq with hq | hq
        · exact (hdrives hq).imp_right .inl
        · exact .inr (.inl ⟨.mow, List.mem_singleton.mp hq⟩)
      · exact (hdrives hq).imp_right .inl
    · exact .inl hq
  · refine .inr (.inr ?_)
    cases hzero : emergency == 0 with
    | true =>
      have : (emergency != 0) = false := by simp [bne, hzero]
      rw [this]
      rfl
    | false =>
      have : (emergency != 0) = true := by simp [bne, hzero]
      rw [this, if_pos rfl]
      split <;> rfl

theorem onEmergencyStop_beats (emergency : UInt8) (written : Bool) :
    Beats
      { s with
        emergency :=
          if emergency != 0 then s.emergency.requestEmergency else s.emergency.requestRelease }
      (s.onEmergencyStop d p emergency written) 1 := by
  unfold onEmergencyStop
  dsimp only
  refine Beats.trans (m := 0) ?_ (sendHeartbeat_beats _ written)
  split
  · have hdrives := (sendDuty_beats { s with emergency := s.emergency.requestEmergency } .left
      (d.lit 0)).trans (sendDuty_beats _ .right (d.lit 0))
    split
    · exact hdrives.trans (sendDuty_beats _ .mow (d.lit 0))
    · exact hdrives
  · constructor <;> rfl

/-! ## Velocity commands -/

theorem onCmdVel_keeps (vx wz : D) (stamp : Int) (written : Bool) :
    let t := s.onCmdVel d p vx wz stamp written
    t.emergency = s.emergency ∧ t.llLastStatus = s.llLastStatus ∧ t.sent = s.sent ∧
      t.hlStatusStamp = s.hlStatusStamp ∧ t.mowRequested = s.mowRequested ∧
      t.cmdVelStamp = (if d.isFinite vx && d.isFinite wz then stamp else s.cmdVelStamp) ∧
      (t.currentMode = s.currentMode ∨
        (t.currentMode = HL_MODE_AUTONOMOUS ∧ s.currentMode = HL_MODE_NULL ∧
          s.emergency.isEmergency = false ∧
          (d.isFinite vx && d.isFinite wz && (!d.eq vx (d.lit 0) || !d.eq wz (d.lit 0))) =
            true)) := by
  unfold onCmdVel
  cases hfin : d.isFinite vx && d.isFinite wz with
  | false => exact ⟨rfl, rfl, rfl, rfl, rfl, rfl, .inl rfl⟩
  | true =>
    dsimp only
    rw [Bool.not_true, if_neg nofun]
    split
    · rename_i hdrives
      rw [Bool.and_eq_true, Bool.and_eq_true, decide_eq_true_eq, Bool.not_eq_true'] at hdrives
      exact ⟨rfl, rfl, rfl, rfl, rfl, rfl,
        .inr ⟨rfl, hdrives.1.1, hdrives.1.2, hdrives.2⟩⟩
    · exact ⟨rfl, rfl, rfl, rfl, rfl, rfl, .inl rfl⟩

end Node

end OpenMower
end Mowgli
