import Mowgli.Actuation.Steps

/-!
# BladeAuthority — who may turn the blade

The wish to turn the blade is copied from a CMD_BLADE into the host statics, from there
into a request of the motor loop, and from there into a frame. Each copy carries the epoch
it was made in. `BladeInv` says what each copy stands for: **the last event of its kind is
the one that made it, and as long as its epoch lasts nothing was invalidated since.**

`Law` is one sentence for each kind of event that hands the wish on. `blade_authority`
chains them, from the frame back to the heartbeat.
-/

namespace Mowgli
namespace Actuation

open Trace

/-! ## The events of the chain -/

def Mark.IsHeartbeat (m : Mark) : Prop := ∃ requested release, m.obs = .heartbeat requested release
def Mark.IsCmdVel (m : Mark) : Prop := ∃ vx wz accepted, m.obs = .cmdVel vx wz accepted
def Mark.IsCmdBlade (m : Mark) : Prop := ∃ on retained, m.obs = .cmdBlade on retained
def Mark.IsBladeRequest (m : Mark) : Prop := ∃ on, m.obs = .bladeRequest on

/-- A CMD_VEL that was accepted, in IDLE or not. -/
def Mark.CmdVelAccepted (m : Mark) : Prop := ∃ vx wz, m.obs = .cmdVel vx wz true

/-- A valid CMD_VEL: accepted outside of IDLE. -/
def Mark.CmdVelValid (m : Mark) : Prop := m.CmdVelAccepted ∧ m.core.status ≠ .idle

/-- A CMD_BLADE ON that was taken. -/
def Mark.BladeOn (m : Mark) : Prop := m.obs = .cmdBlade true true

/-- A request of the motor loop to turn the blade. -/
def Mark.BladeRequested (m : Mark) : Prop := m.obs = .bladeRequest true

/-! ## The laws -/

/-- When an ON was taken: a valid CMD_VEL of the same epoch and a HEARTBEAT were young, as
    the 32-bit clock measures it. -/
def OnLaw (m : Mark) (past : List Mark) : Prop :=
  m.BladeOn →
    Since (CalmBut Mark.IsCmdVel)
      (fun b _ => b.CmdVelValid ∧ m.core.tick - b.core.tick ≤ Host.CMD_VEL_TIMEOUT_MS) past ∧
    Since (fun b => ¬b.IsHeartbeat)
      (fun b _ => b.IsHeartbeat ∧ m.core.tick - b.core.tick ≤ Host.HEARTBEAT_TIMEOUT_MS) past

/-- When the loop requests the blade: the last CMD_BLADE is an ON of this epoch. -/
def RequestLaw (m : Mark) (past : List Mark) : Prop :=
  m.BladeRequested → Since (CalmBut Mark.IsCmdBlade) (fun b _ => b.BladeOn) past

/-- The gates of an output. -/
def Core.Open (c : Core) : Prop :=
  c.emergencyState = 0#8 ∧ c.status ≠ .idle ∧ c.inhibited = false

/-- When a frame turns the blade: the gates are open, and the last request is one of this
    epoch. -/
def FrameLaw (B : Board) (m : Mark) (past : List Mark) : Prop :=
  ∀ command transmitted, m.obs = .bladeFrame command transmitted → command ≠ B.stopCommand →
    m.core.Open ∧ Since (CalmBut Mark.IsBladeRequest) (fun b _ => b.BladeRequested) past

def BladeLaw (B : Board) (m : Mark) (past : List Mark) : Prop :=
  OnLaw m past ∧ RequestLaw m past ∧ FrameLaw B m past

/-! ## The invariant -/

structure BladeInv (B : Board) (s : Firmware) : Prop where
  epoch : Epoched s
  heartbeat : s.host.heartbeatSeen = true →
    Since (fun m => ¬m.IsHeartbeat)
      (fun m _ => m.IsHeartbeat ∧ m.core.tick = s.host.lastHeartbeat) s.log
  velocity : s.host.validCmdVelSeen = true →
    Since (fun m => ¬m.IsCmdVel)
      (fun m _ => m.CmdVelValid ∧ m.core.tick = s.host.lastCmdVel) s.log
  velocityEpoch : Worth Mark.CmdVelAccepted s.log s.host.cmdVelEpoch
  target : s.host.targetBlade = true →
    Since (fun m => ¬m.IsCmdBlade) (fun m _ => m.BladeOn) s.log ∧
      Worth Mark.BladeOn s.log s.host.targetBladeEpoch
  request : s.blade.onOff = true →
    Since (fun m => ¬m.IsBladeRequest) (fun m _ => m.BladeRequested) s.log ∧
      Worth Mark.BladeRequested s.log s.blade.onEpoch
  law : Always (fun m past => NoWrap past → BladeLaw B m past) s.log

/-- No wish is added to the statics of the host. -/
structure Host.NoMore (h h' : Host) : Prop where
  heartbeat : h'.heartbeatSeen = true → h.heartbeatSeen = true ∧ h'.lastHeartbeat = h.lastHeartbeat
  velocity : h'.validCmdVelSeen = true → h.validCmdVelSeen = true ∧ h'.lastCmdVel = h.lastCmdVel
  velocityEpoch : h'.cmdVelEpoch = h.cmdVelEpoch
  target : h'.targetBlade = true →
    h.targetBlade = true ∧ h'.targetBladeEpoch = h.targetBladeEpoch

/-- No wish is added to the statics of the blade driver. -/
def Blade.NoMore (b b' : Blade) : Prop :=
  b'.onOff = true → b.onOff = true ∧ b'.onEpoch = b.onEpoch

theorem Host.NoMore.refl {h : Host} : Host.NoMore h h :=
  ⟨fun e => ⟨e, rfl⟩, fun e => ⟨e, rfl⟩, rfl, fun e => ⟨e, rfl⟩⟩

theorem Host.Kept.noMore {h h' : Host} (k : Host.Kept h h') : Host.NoMore h h' where
  heartbeat e := ⟨k.heartbeatSeen.symm.trans e, k.lastHeartbeat⟩
  velocity e := ⟨k.validCmdVelSeen.symm.trans e, k.lastCmdVel⟩
  velocityEpoch := k.cmdVelEpoch
  target e := ⟨k.targetBlade.symm.trans e, k.targetBladeEpoch⟩

theorem Blade.NoMore.refl {b : Blade} : Blade.NoMore b b := fun e => ⟨e, rfl⟩

theorem Blade.NoMore.off {b b' : Blade} (h : b'.onOff = false) : Blade.NoMore b b' :=
  fun e => absurd (h.symm.trans e) (by simp)

namespace BladeInv

variable {B : Board} {s s' : Firmware}

theorem drop (h : BladeInv B s) (hepoch : s'.authorization.epoch = s.authorization.epoch)
    (hlog : s'.log = s.log) (hhost : Host.NoMore s.host s'.host)
    (hblade : Blade.NoMore s.blade s'.blade) : BladeInv B s' where
  epoch := by unfold Epoched; rw [hepoch, hlog]; exact h.epoch
  heartbeat e := by
    obtain ⟨hs, hl⟩ := hhost.heartbeat e
    rw [hlog, hl]
    exact h.heartbeat hs
  velocity e := by
    obtain ⟨hs, hl⟩ := hhost.velocity e
    rw [hlog, hl]
    exact h.velocity hs
  velocityEpoch := by rw [hlog, hhost.velocityEpoch]; exact h.velocityEpoch
  target e := by
    obtain ⟨hs, hl⟩ := hhost.target e
    rw [hlog, hl]
    exact h.target hs
  request e := by
    obtain ⟨hs, hl⟩ := hblade e
    rw [hlog, hl]
    exact h.request hs
  law := by rw [hlog]; exact h.law

/-- A log entry that is no event of the chain. -/
def Quiet (m : Mark) : Prop :=
  ¬m.IsHeartbeat ∧ ¬m.IsCmdVel ∧ ¬m.IsCmdBlade ∧ ¬m.IsBladeRequest

theorem Quiet.of_frame {c : Core} {command : Byte} {transmitted : Bool} :
    Quiet ⟨c, .bladeFrame command transmitted⟩ := by
  simp [Quiet, Mark.IsHeartbeat, Mark.IsCmdVel, Mark.IsCmdBlade, Mark.IsBladeRequest]

/-- One more entry, which keeps the law, over statics that gain nothing. -/
theorem cons {m : Mark} (h : BladeInv B s) (hm : Quiet m) (hepoch : Epoched s')
    (hlog : s'.log = m :: s.log) (hhost : s'.host = s.host) (hblade : s'.blade = s.blade)
    (hlaw : NoWrap s.log → BladeLaw B m s.log) : BladeInv B s' where
  epoch := hepoch
  heartbeat e := by
    rw [hlog, hhost]
    exact .inr ⟨hm.1, h.heartbeat (hhost ▸ e)⟩
  velocity e := by
    rw [hlog, hhost]
    exact .inr ⟨hm.2.1, h.velocity (hhost ▸ e)⟩
  velocityEpoch := by rw [hlog, hhost]; exact h.velocityEpoch.cons
  target e := by
    rw [hlog, hhost]
    obtain ⟨hs, hw⟩ := h.target (hhost ▸ e)
    exact ⟨.inr ⟨hm.2.2.1, hs⟩, hw.cons⟩
  request e := by
    rw [hlog, hblade]
    obtain ⟨hs, hw⟩ := h.request (hblade ▸ e)
    exact ⟨.inr ⟨hm.2.2.2, hs⟩, hw.cons⟩
  law := by rw [hlog]; exact ⟨hlaw, h.law⟩

/-- What is no event of the chain and no frame of the blade is under no law. -/
theorem lawless {m : Mark} {past : List Mark} (hm : Quiet m)
    (hf : ∀ command transmitted, m.obs ≠ .bladeFrame command transmitted) : BladeLaw B m past := by
  refine ⟨fun ho => ?_, fun ho => ?_, fun command transmitted ho => absurd ho (hf _ _)⟩
  · exact absurd ⟨true, true, ho⟩ hm.2.2.1
  · exact absurd ⟨true, ho⟩ hm.2.2.2

theorem note {o : Obs} (h : BladeInv B s) (hm : Quiet ⟨s.toCore, o⟩)
    (hf : ∀ command transmitted, o ≠ .bladeFrame command transmitted) (ho : o ≠ .invalidated) :
    BladeInv B (s.note o) :=
  h.cons hm (h.epoch.note ho) rfl rfl rfl fun _ => lawless hm hf

/-- The observations that are no event of the chain. -/
theorem quiet_note {o : Obs} (h : BladeInv B s)
    (ho : (match o with
      | .hlState _ | .snapshot | .speedRequest _ _ | .speedRead | .reverse | .driveFrame _
      | .bladeReply _ _ _ _ | .latched _ _ | .cleared _ | .playPoll _ _ _ _ => true
      | _ => false) = true) : BladeInv B (s.note o) := by
  have hquiet : Quiet ⟨s.toCore, o⟩ := by
    simp only [Quiet, Mark.IsHeartbeat, Mark.IsCmdVel, Mark.IsCmdBlade, Mark.IsBladeRequest]
    refine ⟨?_, ?_, ?_, ?_⟩
    · rintro ⟨_, _, rfl⟩; simp at ho
    · rintro ⟨_, _, _, rfl⟩; simp at ho
    · rintro ⟨_, _, rfl⟩; simp at ho
    · rintro ⟨_, rfl⟩; simp at ho
  refine h.note hquiet (fun command transmitted he => ?_) (fun he => ?_)
  · rw [he] at ho; simp at ho
  · rw [he] at ho; simp at ho

theorem setHost (h : BladeInv B s) {f : Host → Host} (hf : Host.NoMore s.host (f s.host)) :
    BladeInv B (s.setHost f) := h.drop rfl rfl hf .refl

theorem setBlade (h : BladeInv B s) {f : Blade → Blade} (hf : Blade.NoMore s.blade (f s.blade)) :
    BladeInv B (s.setBlade f) := h.drop rfl rfl .refl hf

theorem setDrive (h : BladeInv B s) {f : Drive → Drive} : BladeInv B (s.setDrive f) :=
  h.drop rfl rfl .refl .refl

theorem setTimers (h : BladeInv B s) {f : EmergencyTimers → EmergencyTimers} :
    BladeInv B (s.setTimers f) := h.drop rfl rfl .refl .refl

theorem invalidate (h : BladeInv B s) : BladeInv B s.invalidate := by
  have hquiet : Quiet ⟨s.toCore, .invalidated⟩ := by
    simp [Quiet, Mark.IsHeartbeat, Mark.IsCmdVel, Mark.IsCmdBlade, Mark.IsBladeRequest]
  exact h.cons hquiet h.epoch.invalidate rfl rfl rfl fun _ => lawless hquiet (by simp)

theorem forceInhibit (h : BladeInv B s) : BladeInv B s.forceInhibit := by
  unfold Firmware.forceInhibit
  by_cases hi : s.inhibited = true
  · rw [if_pos hi]; exact h
  · rw [if_neg hi]; exact h.invalidate.drop rfl rfl .refl .refl

theorem emergencySetBits (h : BladeInv B s) {bits : Byte} {cause : Latch} :
    BladeInv B (s.emergencySetBits bits cause) := by
  unfold Firmware.emergencySetBits
  by_cases hi : s.emergency = 0#8 ∧ bits ≠ 0#8
  · rw [if_pos hi]
    exact (h.invalidate.quiet_note (o := .latched bits cause) rfl).drop rfl rfl .refl .refl
  · rw [if_neg hi]
    exact (h.quiet_note (o := .latched bits cause) rfl).drop rfl rfl .refl .refl

theorem emergencyRelease (h : BladeInv B s) {cause : Clear} :
    BladeInv B (s.emergencyRelease cause) := by
  unfold Firmware.emergencyRelease
  cases hc : (s.world.onboardHealthy && s.world.physicalInputs.clear && s.emergency != 0#8) with
  | true => exact (h.quiet_note (o := .cleared cause) rfl).drop rfl rfl .refl .refl
  | false => exact h

/-! ## The blade driver -/

/-- A command that turns the blade is prepared for an authorized request only. -/
theorem prepareMsg (h : BladeInv B s) : BladeInv B (Blade.prepareMsg B s) ∧
    ((Blade.prepareMsg B s).blade.command ≠ B.stopCommand →
      Blade.onRequestIsAuthorized (Blade.prepareMsg B s).toCore = true) := by
  obtain ⟨s₁, hs₁, hcase⟩ := Blade.prepareMsg_cases B s
  have h₁ : BladeInv B s₁ := by
    rcases hs₁ with rfl | rfl
    · exact h
    · exact h.forceInhibit
  rcases hcase with ⟨f, hf, hstop⟩ | ⟨ha, hf⟩
  · rw [hf]
    exact ⟨h₁.setBlade (.off hstop.onOff), fun hne => absurd hstop.command hne⟩
  · rw [hf]
    have hsame := Blade.chooseCommand_same B s₁.tick s₁.blade
    refine ⟨h₁.setBlade fun e => ⟨hsame.onOff.symm.trans e, hsame.onEpoch⟩, fun _ => ?_⟩
    simp only [Blade.onRequestIsAuthorized, Firmware.setBlade, hsame.onOff, hsame.onEpoch]
    exact ha

theorem frameLaw (h : BladeInv B s) (hw : NoWrap s.log)
    (ha : Blade.onRequestIsAuthorized s.toCore = true) :
    s.toCore.Open ∧ Since (CalmBut Mark.IsBladeRequest) (fun b _ => b.BladeRequested) s.log := by
  simp only [Blade.onRequestIsAuthorized, Blade.permitted, Authorization.driveRequestIsCurrent,
    Bool.and_eq_true, beq_iff_eq, bne_iff_ne, ne_eq, Bool.not_eq_true'] at ha
  obtain ⟨hon, ⟨⟨hemergency, hidle⟩, hinhibited⟩, hepoch, _⟩ := ha
  obtain ⟨hlast, hworth⟩ := h.request hon
  refine ⟨⟨hemergency, hidle, hinhibited⟩, ?_⟩
  exact hlast.since (h.epoch.lately hw hepoch hworth) fun a _ hq => fun hn => hn ⟨true, hq⟩

theorem handOver (h : BladeInv B s) {transmitted : Bool} :
    BladeInv B (Blade.handOver B transmitted s) := by
  obtain ⟨hp, ha⟩ := h.prepareMsg
  have hn : BladeInv B ((Blade.prepareMsg B s).note
      (.bladeFrame (Blade.prepareMsg B s).blade.command transmitted)) := by
    refine hp.cons Quiet.of_frame (hp.epoch.note (by simp)) rfl rfl rfl fun hw => ⟨?_, ?_, ?_⟩
    · exact fun ho => absurd ho (by simp [Mark.BladeOn])
    · exact fun ho => absurd ho (by simp [Mark.BladeRequested])
    · intro command t ho hne
      obtain ⟨rfl, -⟩ := Obs.bladeFrame.inj ho
      exact hp.frameLaw hw (ha hne)
  unfold Blade.handOver
  cases transmitted with
  | false => exact hn
  | true =>
    refine hn.setBlade fun e => ?_
    revert e
    simp only [Blade.sent]
    split
    · exact fun e => ⟨e, rfl⟩
    · split
      · exact fun e => ⟨e, rfl⟩
      · exact fun e => ⟨e, rfl⟩

theorem bladeStep (h : BladeInv B s) (hs : BladeStep B s s') : BladeInv B s' := by
  cases hs with
  | rest => exact h
  | inhibit => exact h.forceInhibit
  | update f hf => exact h.setBlade fun e => ⟨hf.onOff.symm.trans e, hf.onEpoch⟩
  | drop => exact h.setBlade (.off rfl)
  | handOver transmitted => exact h.handOver

theorem upkeep (h : BladeInv B s) (hs : Upkeep s s') : BladeInv B s' := by
  induction hs with
  | refl => exact h
  | inhibit _ ih => exact ih.forceInhibit
  | blade _ f hon hepoch ih => exact ih.setBlade fun e => ⟨hon.symm.trans e, hepoch⟩
  | drive _ f hf hm hs ih => exact ih.setDrive
  | reply _ valid activated error reportedSpeed ih => exact ih.quiet_note rfl

/-! ## The drive driver -/

theorem driveStep (h : BladeInv B s) (hs : DriveStep s s') : BladeInv B s' := by
  cases hs with
  | rest => exact h
  | inhibit => exact h.forceInhibit
  | update f hf => exact h.setDrive
  | read => exact h.quiet_note rfl
  | reverse => exact h.quiet_note rfl
  | frame => exact h.quiet_note rfl
  | handOver abandon =>
    unfold Drive.handOver
    dsimp only
    split
    · exact h.setDrive.quiet_note rfl
    · exact h.quiet_note rfl

/-! ## The emergency inputs -/

theorem emergencyStep (h : BladeInv B s) (hs : EmergencyStep s s') : BladeInv B s' := by
  cases hs with
  | rest => exact h
  | timers f hf => exact h.setTimers
  | setBits bits hb => exact h.emergencySetBits

/-! ## The packets -/

theorem beat (h : BladeInv B s) {requested release : Bool} :
    BladeInv B (Host.beat requested release s) := by
  have hother : ∀ {p : Mark → Prop} {q : Mark → List Mark → Prop},
      ¬p ⟨s.toCore, .heartbeat requested release⟩ → Since (fun m => ¬p m) q s.log →
      Since (fun m => ¬p m) q (⟨s.toCore, .heartbeat requested release⟩ :: s.log) :=
    fun hn hs => .inr ⟨hn, hs⟩
  refine { epoch := h.epoch.note (by simp), heartbeat := fun _ => .inl ⟨⟨_, _, rfl⟩, rfl⟩
           velocity := fun e => hother (by simp [Mark.IsCmdVel]) (h.velocity e)
           velocityEpoch := h.velocityEpoch.cons
           target := fun e => ⟨hother (by simp [Mark.IsCmdBlade]) (h.target e).1, (h.target e).2.cons⟩
           request := fun e =>
             ⟨hother (by simp [Mark.IsBladeRequest]) (h.request e).1, (h.request e).2.cons⟩
           law := ⟨fun _ => ⟨fun ho => ?_, fun ho => ?_, fun c t ho => ?_⟩, h.law⟩ }
  · exact absurd ho (by simp [Mark.BladeOn])
  · exact absurd ho (by simp [Mark.BladeRequested])
  · exact absurd ho (by simp)

theorem decided (h : BladeInv B s) {decision : HeartbeatEmergencyAction × Bool} :
    BladeInv B (Host.decided decision s) := by
  have happly : BladeInv B (Host.applyHeartbeat decision.1 s) := by
    cases decision.1 with
    | unchanged => exact h
    | assert => exact h.emergencySetBits
    | release => exact h.emergencyRelease
    | autoClearWatchdog => exact h.emergencyRelease
  unfold Host.decided
  dsimp only
  split
  · exact happly.setHost ⟨fun e => ⟨e, rfl⟩, fun e => ⟨e, rfl⟩, rfl, fun e => ⟨e, rfl⟩⟩
  · exact happly

theorem onHeartbeat (h : BladeInv B s) {requested release : Bool} :
    BladeInv B (Host.onHeartbeat requested release s) := h.beat.decided

/-- A CMD_VEL: the entry, and statics that are worth it. -/
theorem cmdVel (h : BladeInv B s) {vx wz : Binary32.Bits} {accepted : Bool}
    (hepoch : s'.authorization.epoch = s.authorization.epoch)
    (hlog : s'.log = ⟨s.toCore, .cmdVel vx wz accepted⟩ :: s.log)
    (hbeat : s'.host.heartbeatSeen = s.host.heartbeatSeen ∧
      s'.host.lastHeartbeat = s.host.lastHeartbeat)
    (hvalid : s'.host.validCmdVelSeen = true →
      accepted = true ∧ s.status ≠ .idle ∧ s'.host.lastCmdVel = s.tick)
    (hworth : s'.host.cmdVelEpoch = s.host.cmdVelEpoch ∨
      accepted = true ∧ s'.host.cmdVelEpoch = s.authorization.epoch)
    (htarget : s'.host.targetBlade = s.host.targetBlade ∧
      s'.host.targetBladeEpoch = s.host.targetBladeEpoch)
    (hblade : s'.blade = s.blade) : BladeInv B s' where
  epoch := by
    unfold Epoched
    rw [hepoch, hlog]
    exact h.epoch.note (o := .cmdVel vx wz accepted) (by simp)
  heartbeat e := by
    rw [hlog, hbeat.2]
    exact .inr ⟨by simp [Mark.IsHeartbeat], h.heartbeat (hbeat.1 ▸ e)⟩
  velocity e := by
    obtain ⟨rfl, hidle, hlast⟩ := hvalid e
    rw [hlog, hlast]
    exact .inl ⟨⟨⟨vx, wz, rfl⟩, hidle⟩, rfl⟩
  velocityEpoch := by
    rw [hlog]
    rcases hworth with hsame | ⟨rfl, hnow⟩
    · rw [hsame]; exact h.velocityEpoch.cons
    · rw [hnow]
      exact (h.epoch.note (o := .cmdVel vx wz true) (by simp)).current (.inl ⟨vx, wz, rfl⟩)
  target e := by
    rw [hlog, htarget.2]
    obtain ⟨hs, hw⟩ := h.target (htarget.1 ▸ e)
    exact ⟨.inr ⟨by simp [Mark.IsCmdBlade], hs⟩, hw.cons⟩
  request e := by
    rw [hlog, hblade]
    obtain ⟨hs, hw⟩ := h.request (hblade ▸ e)
    exact ⟨.inr ⟨by simp [Mark.IsBladeRequest], hs⟩, hw.cons⟩
  law := by
    rw [hlog]
    refine ⟨fun _ => ⟨fun ho => ?_, fun ho => ?_, fun c t ho => ?_⟩, h.law⟩
    · exact absurd ho (by simp [Mark.BladeOn])
    · exact absurd ho (by simp [Mark.BladeRequested])
    · exact absurd ho (by simp)

theorem cmdVelStep (h : BladeInv B s) {vx wz left right : Binary32.Bits}
    (hs : CmdVelStep vx wz left right s s') : BladeInv B s' := by
  cases hs with
  | refused zeroMotionIntent =>
    exact h.cmdVel rfl rfl ⟨rfl, rfl⟩ (fun e => absurd e (by simp [Host.refuseCmdVel,
      Drive.setHostZeroMotionIntent, Firmware.setDrive, Firmware.setHost])) (.inl rfl) ⟨rfl, rfl⟩ rfl
  | idleZero hidle hzero hclear =>
    unfold Host.takeIdleZero
    dsimp only
    split
    · exact h.cmdVel rfl rfl ⟨rfl, rfl⟩
        (fun e => absurd e Bool.false_ne_true) (.inr ⟨rfl, rfl⟩) ⟨rfl, rfl⟩ rfl
    · exact h.cmdVel rfl rfl ⟨rfl, rfl⟩
        (fun e => absurd e Bool.false_ne_true) (.inr ⟨rfl, rfl⟩) ⟨rfl, rfl⟩ rfl
  | zero hidle hzero hclear =>
    unfold Host.takeCmdVel
    dsimp only
    split
    · exact h.cmdVel rfl rfl ⟨rfl, rfl⟩
        (fun _ => ⟨rfl, hidle, rfl⟩) (.inr ⟨rfl, rfl⟩) ⟨rfl, rfl⟩ rfl
    · exact h.cmdVel rfl rfl ⟨rfl, rfl⟩
        (fun _ => ⟨rfl, hidle, rfl⟩) (.inr ⟨rfl, rfl⟩) ⟨rfl, rfl⟩ rfl
  | motion hidle hzero hfinite hclear harmed =>
    exact h.cmdVel rfl rfl ⟨rfl, rfl⟩
      (fun _ => ⟨rfl, hidle, rfl⟩) (.inr ⟨rfl, rfl⟩) ⟨rfl, rfl⟩ rfl

theorem atIdle (h : BladeInv B s) : BladeInv B (Host.atIdle s) := by
  refine h.drop rfl rfl ⟨fun e => ⟨e, rfl⟩, fun e => ?_, rfl, fun e => ?_⟩ .refl
  · exact absurd e Bool.false_ne_true
  · exact absurd e Bool.false_ne_true

theorem onHlState (h : BladeInv B s) {mode : Byte} : BladeInv B (Host.onHlState mode s) := by
  have h₁ : BladeInv B (s.note (.hlState mode)) := h.quiet_note rfl
  unfold Host.onHlState
  dsimp only
  split
  · unfold Host.enterIdle
    split
    · exact h₁.atIdle
    · exact h₁.invalidate.atIdle
  · exact h₁.drop rfl rfl .refl .refl

/-- An ON that is taken was fresh, and carries the current epoch. -/
theorem bladeDecision_retained {on : Bool} {c : Core}
    (hr : (Host.bladeDecision on c).retainedRequest = true) :
    on = true ∧ Host.bladeCommandFresh c = true ∧
      (Host.bladeDecision on c).requestGeneration = c.authorization.epoch := by
  unfold Host.bladeDecision decideBladeIntent at hr ⊢
  simp only [Option.getD_some] at hr ⊢
  rw [Bool.and_eq_true, Bool.and_eq_true] at hr
  simp [hr.1.1, hr.1.2]

theorem onLaw (h : BladeInv B s) (hw : NoWrap s.log) (hf : Host.bladeCommandFresh s.toCore = true) :
    Since (CalmBut Mark.IsCmdVel)
      (fun b _ => b.CmdVelValid ∧ s.tick - b.core.tick ≤ Host.CMD_VEL_TIMEOUT_MS) s.log ∧
    Since (fun b => ¬b.IsHeartbeat)
      (fun b _ => b.IsHeartbeat ∧ s.tick - b.core.tick ≤ Host.HEARTBEAT_TIMEOUT_MS) s.log := by
  simp only [Host.bladeCommandFresh, bladeOnCommandIsFresh, Authorization.driveRequestIsCurrent,
    Bool.and_eq_true, decide_eq_true_eq, beq_iff_eq] at hf
  obtain ⟨⟨⟨⟨hvalid, hseen⟩, hvel⟩, hbeat⟩, hepoch, _⟩ := hf
  have hlately := h.epoch.lately hw hepoch h.velocityEpoch
  constructor
  · refine ((h.velocity hvalid).since hlately ?_).mono (fun _ hb => hb) ?_
    · rintro a past ⟨vx, wz, ha⟩ hn
      exact hn ⟨vx, wz, true, ha⟩
    · rintro b past ⟨hb, ht⟩
      exact ⟨hb, ht ▸ hvel⟩
  · refine (h.heartbeat hseen).mono (fun _ hb => hb) ?_
    rintro b past ⟨hb, ht⟩
    exact ⟨hb, ht ▸ hbeat⟩

theorem onCmdBlade (h : BladeInv B s) {on direction : Byte} :
    BladeInv B (Host.onCmdBlade on direction s) := by
  have h₁ : BladeInv B ((s.note (.cmdBlade (on != 0#8)
      (Host.bladeDecision (on != 0#8) s.toCore).retainedRequest)).setHost fun t => { t with
        targetBlade := (Host.bladeDecision (on != 0#8) s.toCore).retainedRequest
        targetBladeEpoch := (Host.bladeDecision (on != 0#8) s.toCore).requestGeneration
        bladeDirection := direction }) := by
    have hepoch := h.epoch.note (o := .cmdBlade (on != 0#8)
      (Host.bladeDecision (on != 0#8) s.toCore).retainedRequest) (by simp)
    refine { epoch := hepoch, heartbeat := fun e => .inr ⟨by simp [Mark.IsHeartbeat], h.heartbeat e⟩
             velocity := fun e => .inr ⟨by simp [Mark.IsCmdVel], h.velocity e⟩
             velocityEpoch := h.velocityEpoch.cons
             target := fun e => ?_
             request := fun e => ⟨.inr ⟨by simp [Mark.IsBladeRequest], (h.request e).1⟩, (h.request e).2.cons⟩
             law := ⟨fun hw => ⟨fun ho => ?_, fun ho => ?_, fun c t ho => ?_⟩, h.law⟩ }
    · obtain ⟨hon, _, hgen⟩ := bladeDecision_retained e
      have hmark : (⟨s.toCore, .cmdBlade (on != 0#8)
          (Host.bladeDecision (on != 0#8) s.toCore).retainedRequest⟩ : Mark).BladeOn := by
        show Obs.cmdBlade _ _ = Obs.cmdBlade true true
        rw [hon] at e ⊢
        rw [show (Host.bladeDecision true s.toCore).retainedRequest = true from e]
      refine ⟨.inl hmark, ?_⟩
      show Worth Mark.BladeOn _ (Host.bladeDecision (on != 0#8) s.toCore).requestGeneration
      rw [hgen]
      exact hepoch.current (.inl hmark)
    · obtain ⟨_, hr⟩ := Obs.cmdBlade.inj ho
      exact h.onLaw hw (bladeDecision_retained hr).2.1
    · exact absurd ho (by simp [Mark.BladeRequested])
    · exact absurd ho (by simp)
  unfold Host.onCmdBlade
  dsimp only
  split
  · exact h₁.setHost ⟨fun e => ⟨e, rfl⟩, fun e => ⟨e, rfl⟩, rfl, fun e => ⟨e, rfl⟩⟩
  · exact h₁

/-! ## The motor loop -/

theorem dropped (h : BladeInv B s) (hepoch : s'.authorization.epoch = s.authorization.epoch)
    (hlog : s'.log = s.log) (hblade : s'.blade = s.blade)
    (hbeat : s'.host.heartbeatSeen = s.host.heartbeatSeen ∧
      s'.host.lastHeartbeat = s.host.lastHeartbeat)
    (hvel : s'.host.validCmdVelSeen = s.host.validCmdVelSeen ∧
      s'.host.lastCmdVel = s.host.lastCmdVel) (hworth : s'.host.cmdVelEpoch = s.host.cmdVelEpoch)
    (hoff : s'.host.targetBlade = false) : BladeInv B s' := by
  refine h.drop hepoch hlog ⟨fun e => ⟨hbeat.1 ▸ e, hbeat.2⟩, fun e => ⟨hvel.1 ▸ e, hvel.2⟩, hworth,
    fun e => absurd (hoff.symm.trans e) Bool.false_ne_true⟩ ?_
  rw [hblade]
  exact .refl

theorem watchHeartbeat (h : BladeInv B s) : BladeInv B (Motors.watchHeartbeat s) := by
  unfold Motors.watchHeartbeat
  dsimp only
  split
  · have h₁ : BladeInv B (s.setHost fun t => { t with
        heartbeatOnlyLatch := if s.world.anyPhysicalEmergency then false
          else if s.emergencyState = 0#8 then true else t.heartbeatOnlyLatch }) :=
      h.setHost ⟨fun e => ⟨e, rfl⟩, fun e => ⟨e, rfl⟩, rfl, fun e => ⟨e, rfl⟩⟩
    exact (h₁.emergencySetBits).dropped rfl rfl rfl ⟨rfl, rfl⟩ ⟨rfl, rfl⟩ rfl rfl
  · exact h

theorem dropRetained (h : BladeInv B s) : BladeInv B (Motors.dropRetained s) := by
  unfold Motors.dropRetained
  split
  · exact h.dropped rfl rfl rfl ⟨rfl, rfl⟩ ⟨rfl, rfl⟩ rfl rfl
  · exact h

theorem dropBlade (h : BladeInv B s) : BladeInv B (Motors.dropBlade s) := by
  unfold Motors.dropBlade
  split
  · exact h.dropped rfl rfl rfl ⟨rfl, rfl⟩ ⟨rfl, rfl⟩ rfl rfl
  · exact h

variable {snap : Motors.Snapshot}

theorem dropTargets (h : BladeInv B s) : BladeInv B (Motors.dropTargets snap s) := by
  unfold Motors.dropTargets
  split
  · exact h.drop rfl rfl ⟨fun e => ⟨e, rfl⟩, fun e => absurd e Bool.false_ne_true, rfl, fun e => ⟨e, rfl⟩⟩ .refl
  · exact h

theorem watchVelocity (h : BladeInv B s) : BladeInv B (Motors.watchVelocity s) := by
  unfold Motors.watchVelocity
  split
  · exact h.setDrive
  · exact h

theorem confirmRearm (h : BladeInv B s) : BladeInv B (Motors.confirmRearm snap s) := by
  unfold Motors.confirmRearm
  split
  · exact h.drop rfl rfl .refl .refl
  · have h₁ : BladeInv B (s.setHost Motors.requireRearm) :=
      h.setHost ⟨fun e => ⟨e, rfl⟩, fun e => ⟨e, rfl⟩, rfl, fun e => ⟨e, rfl⟩⟩
    exact h₁.forceInhibit

/-- The blade is requested only if the wish is of the current epoch. -/
theorem requestBlade (h : BladeInv B s) {epoch : Epoch}
    (hon : s.host.bladeOn = true →
      s.host.targetBlade = true ∧ s.host.targetBladeEpoch = s.authorization.epoch) :
    BladeInv B (Motors.requestBlade epoch s) := by
  have hepoch := h.epoch.note (o := .bladeRequest s.host.bladeOn) (by simp)
  have hlaw : NoWrap s.log → BladeLaw B ⟨s.toCore, .bladeRequest s.host.bladeOn⟩ s.log := by
    refine fun hw => ⟨fun ho => ?_, fun ho => ?_, fun c t ho => ?_⟩
    · exact absurd ho (by simp [Mark.BladeOn])
    · obtain ⟨htarget, htoken⟩ := hon (Obs.bladeRequest.inj ho)
      obtain ⟨hlast, hworth⟩ := h.target htarget
      exact hlast.since (h.epoch.lately hw htoken hworth) fun a _ hq hn => hn ⟨true, true, hq⟩
    · exact absurd ho (by simp)
  have hset : ∀ f : Blade → Blade, ((f s.blade).onOff = true → s.host.bladeOn = true ∧
      (f s.blade).onEpoch = s.authorization.epoch) →
      BladeInv B ((s.note (.bladeRequest s.host.bladeOn)).setBlade f) := by
    intro f hf
    refine { epoch := hepoch, heartbeat := fun e => .inr ⟨by simp [Mark.IsHeartbeat], h.heartbeat e⟩
             velocity := fun e => .inr ⟨by simp [Mark.IsCmdVel], h.velocity e⟩
             velocityEpoch := h.velocityEpoch.cons
             target := fun e => ⟨.inr ⟨by simp [Mark.IsCmdBlade], (h.target e).1⟩, (h.target e).2.cons⟩
             request := fun e => ?_
             law := ⟨hlaw, h.law⟩ }
    obtain ⟨hb, he⟩ := hf e
    have hmark : (⟨s.toCore, .bladeRequest s.host.bladeOn⟩ : Mark).BladeRequested :=
      congrArg Obs.bladeRequest hb
    refine ⟨.inl hmark, ?_⟩
    show Worth Mark.BladeRequested _ (f s.blade).onEpoch
    rw [he]
    exact hepoch.current (.inl hmark)
  unfold Motors.requestBlade Blade.set
  dsimp only
  split
  · rename_i hpermit
    simp only [Blade.permitted, Authorization.driveRequestIsCurrent, Bool.and_eq_true,
      beq_iff_eq] at hpermit
    exact hset (fun b => { b with
      direction := s.host.bladeDirection != 0#8, onEpoch := epoch, onOff := true })
      fun _ => ⟨hpermit.1, hpermit.2.2.1⟩
  · exact hset (fun b => Blade.cancelOnRequest { b with
      direction := s.host.bladeDirection != 0#8 }) fun e => absurd e Bool.false_ne_true

theorem requestSpeed (h : BladeInv B s) {leftPwm rightPwm : BitVec 16} {epoch : Epoch} :
    BladeInv B (Motors.requestSpeed leftPwm rightPwm epoch s) :=
  (h.quiet_note (o := .speedRequest leftPwm rightPwm) rfl).drop rfl rfl .refl .refl

theorem output (h : BladeInv B s) {current stop : Bool} {leftPwm rightPwm : BitVec 16} :
    BladeInv B (Motors.output snap current stop leftPwm rightPwm s) := by
  -- What is left of the request when the links were looked at again.
  have hrest : ∀ s₁ : Firmware, BladeInv B s₁ →
      (s₁.host.targetBlade = true → s₁.authorization.epoch = s.authorization.epoch) →
      ∀ s₂, (s₂ = if Motors.bladeStopped s.authorization.epoch s₁.toCore then
        s₁.setHost Motors.bladeOff else s₁) → BladeInv B s₂ ∧ (s₂.host.bladeOn = true →
          s₂.host.targetBlade = true ∧ s₂.host.targetBladeEpoch = s₂.authorization.epoch) := by
    intro s₁ h₁ hsame s₂ hs₂
    cases hstopped : Motors.bladeStopped s.authorization.epoch s₁.toCore with
    | true =>
      rw [hs₂, hstopped, if_pos rfl]
      refine ⟨h₁.setHost ⟨fun e => ⟨e, rfl⟩, fun e => ⟨e, rfl⟩, rfl, fun e => ⟨e, rfl⟩⟩, fun e => ?_⟩
      exact absurd e Bool.false_ne_true
    | false =>
      rw [hs₂, hstopped, if_neg Bool.false_ne_true]
      simp only [Motors.bladeStopped, Bool.or_eq_false_iff, Bool.not_eq_false',
        bne_eq_false_iff_eq] at hstopped
      exact ⟨h₁, fun _ => ⟨hstopped.1.2, hstopped.2.trans (hsame hstopped.1.2).symm⟩⟩
  have hspeed : ∀ s₂, BladeInv B s₂ → (s₂.host.bladeOn = true →
      s₂.host.targetBlade = true ∧ s₂.host.targetBladeEpoch = s₂.authorization.epoch) →
      ∀ {c : Prop} [Decidable c], BladeInv B (Motors.requestBlade snap.bladeEpoch
        (if c then Motors.requestSpeed 0#16 0#16 snap.cmdVelEpoch s₂
          else Motors.requestSpeed leftPwm rightPwm snap.cmdVelEpoch s₂)) := by
    intro s₂ h₂ hon c _
    by_cases hc : c
    · rw [if_pos hc]; exact h₂.requestSpeed.requestBlade hon
    · rw [if_neg hc]; exact h₂.requestSpeed.requestBlade hon
  unfold Motors.output
  dsimp only
  cases hhealthy : Motors.outputLinksHealthy snap s.toCore with
  | true =>
    simp only [if_true]
    obtain ⟨h₂, hon⟩ := hrest s h (fun _ => rfl) _ rfl
    exact hspeed _ h₂ hon
  | false =>
    simp only [Bool.false_eq_true, if_false]
    have h₁ : BladeInv B (Motors.refuseOutput s.authorization.epoch s) :=
      h.forceInhibit.dropped rfl rfl rfl ⟨rfl, rfl⟩ ⟨rfl, rfl⟩ rfl rfl
    obtain ⟨h₂, hon⟩ := hrest _ h₁ (fun e => absurd e Bool.false_ne_true) _ rfl
    exact hspeed _ h₂ hon

theorem motorStep (h : BladeInv B s) (hs : MotorStep snap s s') : BladeInv B s' := by
  cases hs with
  | rest => exact h
  | inhibit => exact h.forceInhibit
  | update f hf => exact h.setHost hf.noMore
  | confirmRearm => exact h.confirmRearm
  | dropRetained => exact h.dropRetained
  | dropTargets => exact h.dropTargets
  | watchVelocity => exact h.watchVelocity
  | dropBlade => exact h.dropBlade
  | watchHeartbeat => exact h.watchHeartbeat
  | output current stop leftPwm rightPwm => exact h.output

/-! ## Runs -/

theorem irq (h : BladeInv B s) (i : Irq) : BladeInv B (Actuation.irq B i s) := by
  cases i with
  | tick n => exact h.drop rfl rfl .refl .refl
  | world w => exact h.drop rfl rfl .refl .refl
  | heartbeat requested release => exact h.onHeartbeat
  | cmdVel vx wz left right => exact h.cmdVelStep (Host.onCmdVel_step vx wz left right s)
  | hlState mode => exact h.onHlState
  | cmdBlade on direction => exact h.onCmdBlade
  | driveDma bytes => exact h.drop rfl rfl .refl .refl
  | bladeDma bytes => exact h.drop rfl rfl .refl fun e => ⟨e, rfl⟩
  | driveReceived => exact h.upkeep .driveReceiveIT
  | bladeReceived => exact h.upkeep .bladeReceiveIT

theorem body (r : Call) : Machine.Preserves (BladeInv B) (callBody B r) := by
  cases r with
  | motorsHandler =>
    exact .bind (.call fun _ s h => h.quiet_note rfl) fun snap =>
      Motors.does_cycle.mono fun _ _ hs h => h.motorStep hs
  | driveApp => exact Drive.does_app10ms.mono fun _ _ hs h => h.driveStep hs
  | bladeApp => exact Blade.does_app.mono fun _ _ hs h => h.bladeStep hs
  | emergencyController =>
    have hplay : Machine.Preserves (ω := Answer) (BladeInv B)
        (.modify (·.emergencyRelease .playHold)) := .modify fun s h => h.emergencyRelease
    refine .bind (.get fun _ h => h) fun yellow => .bind (.get fun _ h => h) fun white => ?_
    refine .bind (.get fun _ h => h) fun blue => .bind (.get fun _ h => h) fun red => ?_
    refine .bind (.get fun _ h => h) fun tilt => .bind (.get fun _ h => h) fun play => ?_
    refine .bind (.get fun _ h => h) fun accelerometer => .bind (.get fun _ h => h) fun now => ?_
    refine .bind (Emergency.does_pollStop.mono fun _ _ hs h => h.emergencyStep hs) fun _ => ?_
    refine .bind (Emergency.does_pollWheels.mono fun _ _ hs h => h.emergencyStep hs) fun _ => ?_
    refine .bind (Emergency.does_pollTilt.mono fun _ _ hs h => h.emergencyStep hs) fun _ => ?_
    refine .bind (.call fun _ s h => (h.quiet_note (o := .playPoll _ _ _ _) rfl).drop rfl rfl .refl .refl)
      fun held => .ite ?_ .ret
    exact .bind hplay fun _ => .modify fun s h => h.setTimers
  | onboardSensorFault =>
    exact .bind (.modify fun s h => h.drop rfl rfl .refl .refl) fun _ => .modify fun s h => h.emergencySetBits
  | setTimeouts oneWheelLift bothWheelsLift tilt stopButton playClear => exact .modify fun s h => h.setTimers

theorem powerUp {now : Nat} {w : World} : BladeInv B (.powerUp B now w) where
  epoch := rfl
  heartbeat e := absurd e Bool.false_ne_true
  velocity e := absurd e Bool.false_ne_true
  velocityEpoch := Granted.of_ne fun _ hg => zero_no_token hg
  target e := absurd e Bool.false_ne_true
  request e := absurd e Bool.false_ne_true
  law := trivial

theorem run {now : Nat} {w : World} {es : List FirmwareEvent} :
    BladeInv B ((machine B).run (start B now w) es).st := by
  have hrest : Machine.Preserves (BladeInv B) (start B now w).fg := Routine.Does.ret
  exact Machine.invariant (M := machine B) (fun i _ h => h.irq i) body (fun k => k.elim)
    (fun k => k.elim) powerUp hrest es

end BladeInv

/-! ## The authority of a frame -/

/-- What the wish was fed by: a valid CMD_VEL of the same epoch and a HEARTBEAT, each the
    last of its kind, neither too old by the measure `age`. -/
def Fed (age : Core → Core → Nat) (m : Mark) (past : List Mark) : Prop :=
  Since (CalmBut Mark.IsCmdVel) (fun b _ => b.CmdVelValid ∧ age m.core b.core ≤ 200) past ∧
  Since (fun b => ¬b.IsHeartbeat) (fun b _ => b.IsHeartbeat ∧ age m.core b.core ≤ 2000) past

/-- A frame that turns the blade finds the gates open. The last request of the loop asked
    for it, the last CMD_BLADE before that request was an ON that was fed, and no
    authorization ended since that ON. -/
def BladeAuthorized (B : Board) (age : Core → Core → Nat) (m : Mark) (past : List Mark) : Prop :=
  ∀ command transmitted, m.obs = .bladeFrame command transmitted → command ≠ B.stopCommand →
    m.core.Open ∧ Since (CalmBut Mark.IsBladeRequest) (fun r past => r.BladeRequested ∧
      Since (CalmBut Mark.IsCmdBlade) (fun b past => b.BladeOn ∧ Fed age b past) past) past

/-- An age, as the 32-bit clock measures it. -/
def tickAge (later earlier : Core) : Nat := (later.tick - earlier.tick).toNat

/-- An age in milliseconds. -/
def realAge (later earlier : Core) : Nat := later.now - earlier.now

theorem OnLaw.fed {m : Mark} {past : List Mark} (h : OnLaw m past) (hm : m.BladeOn) :
    Fed tickAge m past := by
  obtain ⟨hvel, hbeat⟩ := h hm
  constructor
  · refine hvel.mono (fun _ hb => hb) ?_
    rintro b _ ⟨hb, hage⟩
    exact ⟨hb, BitVec.le_def.1 hage⟩
  · refine hbeat.mono (fun _ hb => hb) ?_
    rintro b _ ⟨hb, hage⟩
    exact ⟨hb, BitVec.le_def.1 hage⟩

theorem blade_authority (B : Board) (now : Nat) (w : World) (es : List FirmwareEvent)
    (hw : NoWrap ((machine B).run (start B now w) es).st.log) :
    Always (BladeAuthorized B tickAge) ((machine B).run (start B now w) es).st.log := by
  have hlaws : Always (BladeLaw B) ((machine B).run (start B now w) es).st.log :=
    hw.always BladeInv.run.law
  generalize ((machine B).run (start B now w) es).st.log = log at hlaws
  induction log with
  | nil => trivial
  | cons m past ih =>
    refine ⟨fun command transmitted ho hne => ?_, ih hlaws.2⟩
    obtain ⟨hopen, hrequest⟩ := hlaws.1.2.2 command transmitted ho hne
    refine ⟨hopen, (hrequest.withAlways hlaws.2).mono (fun _ hb => hb) ?_⟩
    rintro r past' ⟨hr, hlaw, hpast⟩
    refine ⟨hr, ((hlaw.2.1 hr).withAlways hpast).mono (fun _ hb => hb) ?_⟩
    rintro b past'' ⟨hb, hon, _⟩
    exact ⟨hb, hon.1.fed hb⟩

-- A log of a closed run is compared as it is written, and never computed by the elaborator.
attribute [local irreducible] Machine.run

theorem blade_authority_mowing :
    Always (BladeAuthorized .yardforce500 tickAge) (Session.log Session.mowing) ∧
      (Session.log Session.mowing).any (fun m => m.obs == .bladeFrame 0x80#8 true) = true := by
  unfold Session.log
  exact ⟨blade_authority .yardforce500 1000 Session.calm Session.mowing (by decide +kernel),
    by decide +kernel⟩

/-- Armed, no CMD_VEL for `2 ^ 32` milliseconds, and an ON. -/
def Session.overslept : List FirmwareEvent :=
  armed ++ [motion, .irq (.tick 4294967296), .irq (.heartbeat false false)] ++ links ++
    [.irq (.cmdBlade 1#8 0#8)] ++ pass .motorsHandler 25 true ++ pass .bladeApp 14 true

/-- An ON in this log is fed by a CMD_VEL of its log that is young enough. -/
theorem BladeAuthorized.fed {B : Board} {age : Core → Core → Nat} {log : List Mark} {m : Mark}
    {command : Byte} {transmitted : Bool} (h : Always (BladeAuthorized B age) log) (hm : m ∈ log)
    (ho : m.obs = .bladeFrame command transmitted) (hne : command ≠ B.stopCommand) :
    ∃ b ∈ log, b.BladeOn ∧ ∃ v ∈ log, v.IsCmdVel ∧ age b.core v.core ≤ 200 := by
  obtain ⟨later, past, rfl⟩ := List.append_of_mem hm
  obtain ⟨_, hs⟩ := Always.iff_split.1 h later m past rfl command transmitted ho hne
  obtain ⟨later', r, past', rfl, _, _, hs⟩ := Since.iff_split.1 hs
  obtain ⟨later'', b, past'', rfl, _, hb, hvel, _⟩ := Since.iff_split.1 hs
  obtain ⟨_, v, _, rfl, _, ⟨⟨vx, wz, hv⟩, _⟩, hage⟩ := Since.iff_split.1 hvel
  exact ⟨b, by simp, hb, v, by simp, ⟨vx, wz, true, hv⟩, hage⟩

/-- The ages are tick ages: by the true time the command may be `2 ^ 32` ms old. -/
theorem blade_authority_overslept : NoWrap (Session.log Session.overslept) ∧
    ¬Always (BladeAuthorized .yardforce500 realAge) (Session.log Session.overslept) := by
  refine ⟨by decide +kernel, fun h => ?_⟩
  have hframe : ∃ m ∈ Session.log Session.overslept, m.obs = .bladeFrame 0x80#8 true := by
    decide +kernel
  have hlate : ∀ b ∈ Session.log Session.overslept, b.obs = .cmdBlade true true →
      4294968296 ≤ b.core.now := by decide +kernel
  have hearly : ∀ v ∈ Session.log Session.overslept,
      (match v.obs with | .cmdVel _ _ _ => true | _ => false) = true → v.core.now ≤ 1000 := by
    decide +kernel
  generalize Session.log Session.overslept = log at *
  obtain ⟨m, hm, ho⟩ := hframe
  obtain ⟨b, hb, hon, v, hv, ⟨vx, wz, accepted, hvel⟩, hage⟩ :=
    BladeAuthorized.fed h hm ho (by decide)
  have hlate' := hlate b hb hon
  have hearly' := hearly v hv (by rw [hvel])
  unfold realAge at hage
  omega

end Actuation
end Mowgli
