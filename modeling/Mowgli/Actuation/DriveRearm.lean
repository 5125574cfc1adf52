import Mowgli.Actuation.Steps

/-!
# DriveRearm — what a wheel that turns is owed to

The wheel request is copied from the motor loop into the statics of the driver, with the
epoch of the command it was computed from, and from there, one static after the other, into
a frame. `DriveLaw` is what the gates at the handover guarantee: they hold for **every
frame in every run**, the reverse after a collision included.

That the speeds themselves are no older than the last boundary, nor the snapshot and the
command they were computed from (`Fresh`), needs the token to be the one they were requested
under. An IDLE gives the driver a new token, of the new
epoch, with a request of zero; a pass that has read the old speeds before it and hands them
over after it goes by the new token. If motion was re-armed in between, **the old speeds are
driven** (`Disturbed`).
-/

namespace Mowgli
namespace Actuation

open Trace

/-! ## The events -/

def Mark.IsAccepted (m : Mark) : Prop := ∃ vx wz, m.obs = .cmdVel vx wz true

/-- An exact zero, taken while there was no emergency. -/
def Mark.ZeroAccepted (m : Mark) : Prop :=
  ∃ vx wz, m.obs = .cmdVel vx wz true ∧ isZero vx = true ∧ isZero wz = true ∧
    m.core.emergencyState = 0#8

def Mark.MotionAccepted (m : Mark) : Prop :=
  ∃ vx wz, m.obs = .cmdVel vx wz true ∧ ¬(isZero vx = true ∧ isZero wz = true)

/-- A HL_STATE of a mode that is IDLE to the motors. -/
def Mark.IsIdle (m : Mark) : Prop := ∃ mode, m.obs = .hlState mode ∧ Host.modeStatus mode = .idle

def Mark.IsSpeedRequest (m : Mark) : Prop := ∃ left right, m.obs = .speedRequest left right

/-- A cycle of the motor loop reads its targets. -/
def Mark.IsSnapshot (m : Mark) : Prop := m.obs = .snapshot

/-- The speeds of a frame are about to be read, or set to those of the reverse. -/
def Mark.IsTarget (m : Mark) : Prop := m.obs = .speedRead ∨ m.obs = .reverse

/-- An entry of the main loop that a frame is measured from. -/
def Mark.IsSource (m : Mark) : Prop := m.IsTarget ∨ m.IsSnapshot

theorem Mark.isSource_iff {m : Mark} :
    m.IsSource ↔ (m.obs = .speedRead ∨ m.obs = .reverse) ∨ m.obs = .snapshot := Iff.rfl

/-- A frame that turns the left wheel, and maybe the right one. -/
def Mark.drivesLeft (m : Mark) : Bool :=
  match m.obs with
  | .driveFrame r => r.leftSpeed != 0#8
  | _ => false

/-- A frame that turns a wheel. -/
def Mark.Drives (m : Mark) : Prop :=
  ∃ r, m.obs = .driveFrame r ∧ (r.leftSpeed ≠ 0#8 ∨ r.rightSpeed ≠ 0#8)

theorem Mark.drives_of_drivesLeft {m : Mark} (h : m.drivesLeft = true) : m.Drives := by
  unfold Mark.drivesLeft at h
  split at h
  · rename_i r ho
    exact ⟨r, ho, .inl (bne_iff_ne.1 h)⟩
  · exact absurd h Bool.false_ne_true

/-! ## The laws -/

/-- A frame that turns a wheel: the gates are open over a healthy link, the last CMD_VEL that
    was taken is motion, and in this epoch a zero was taken before it. -/
def DriveLaw (m : Mark) (past : List Mark) : Prop :=
  m.Drives → m.core.emergencyState = 0#8 ∧ m.core.status ≠ .idle ∧ m.core.inhibited = false ∧
    Drive.feedbackHealthy m.core.tick m.core.drive = true ∧
    Since (fun v => v.isBreak = false ∧ ¬v.IsAccepted)
      (fun v past => v.MotionAccepted ∧ LatelyDid Mark.ZeroAccepted past) past

/-- The speeds that were read had been requested after the last boundary, by a cycle whose
    snapshot was taken after it too, and the newest command in that snapshot was accepted
    after it. -/
def Fresh (m : Mark) (past : List Mark) : Prop :=
  m.Drives → Since (CalmBut Mark.IsTarget) (fun t past =>
    t.obs = .reverse ∨ t.obs = .speedRead ∧
      Since (CalmBut Mark.IsSpeedRequest) (fun r past => r.IsSpeedRequest ∧
        Since (CalmBut Mark.IsSnapshot) (fun p past =>
          p.IsSnapshot ∧ LatelyDid Mark.IsAccepted past) past) past) past

/-- Since the speeds were read, an IDLE came, and after it motion was taken. -/
def Disturbed (past : List Mark) : Prop :=
  Since (fun v => ¬v.IsTarget) (fun v past => v.MotionAccepted ∧
    Since (fun i => ¬i.IsTarget) (fun i _ => i.IsIdle) past) past

def Undisturbed (m : Mark) (past : List Mark) : Prop := m.Drives → ¬Disturbed past

/-! ## The invariant -/

abbrev IssuedIn (log : List Mark) (t : Epoch) : Prop := Issued epochs Mark.isBreak log t

/-- The newest snapshot is of the token `t`, and found a command accepted under it. -/
def Snapped (t : Epoch) (log : List Mark) : Prop :=
  Since (fun m => ¬m.IsSnapshot) (fun m past => m.IsSnapshot ∧ Worth Mark.IsAccepted past t) log

/-- The newest request of the motor loop is of the token `t`. -/
def Asked (t : Epoch) (log : List Mark) : Prop :=
  Since (fun m => ¬m.IsSpeedRequest) (fun m past => m.IsSpeedRequest ∧ Snapped t past) log

variable {t : Epoch}

variable {log : List Mark}

theorem Snapped.issued (h : Snapped t log) : IssuedIn log t :=
  Issued.of_since h fun _ _ hp => hp.2.issued.cons

structure DriveInv (s : Firmware) : Prop where
  epoch : Epoched s
  zero : Worth Mark.ZeroAccepted s.log s.authorization.driveZeroEpoch
  command : Worth Mark.IsAccepted s.log s.host.cmdVelEpoch
  token : IssuedIn s.log s.drive.authorizationEpoch
  intent : s.drive.hostZeroIntent = false →
    Since (fun m => ¬m.IsAccepted) (fun m _ => m.MotionAccepted) s.log
  request : s.drive.leftSpeedReq ≠ 0#8 ∨ s.drive.rightSpeedReq ≠ 0#8 →
    Asked s.drive.authorizationEpoch s.log
  law : Always (fun m past => NoWrap past → DriveLaw m past ∧ (Undisturbed m past → Fresh m past))
    s.log

namespace DriveInv

variable {B : Board} {s s' : Firmware}

/-- The statics gain nothing. -/
theorem set (h : DriveInv s) (hlog : s'.log = s.log) (hauth : s'.authorization = s.authorization)
    (hcommand : s'.host.cmdVelEpoch = s.host.cmdVelEpoch)
    (htoken : s'.drive.authorizationEpoch = s.drive.authorizationEpoch)
    (hintent : s'.drive.hostZeroIntent = false → s.drive.hostZeroIntent = false)
    (hleft : s'.drive.leftSpeedReq = s.drive.leftSpeedReq)
    (hright : s'.drive.rightSpeedReq = s.drive.rightSpeedReq) : DriveInv s' where
  epoch := by unfold Epoched; rw [hauth, hlog]; exact h.epoch
  zero := by rw [hlog, hauth]; exact h.zero
  command := by rw [hlog, hcommand]; exact h.command
  token := by rw [hlog, htoken]; exact h.token
  intent hi := by rw [hlog]; exact h.intent (hintent hi)
  request hr := by
    rw [hleft, hright] at hr
    rw [hlog, htoken]
    exact h.request hr
  law := by rw [hlog]; exact h.law

/-- One more entry, no CMD_VEL that is taken and no request. -/
theorem cons {m : Mark} (h : DriveInv s) (hm : ¬m.IsAccepted) (hask : ¬m.IsSpeedRequest)
    (hepoch : Epoched s') (hlog : s'.log = m :: s.log)
    (hzero : s'.authorization.driveZeroEpoch = s.authorization.driveZeroEpoch)
    (hcommand : s'.host.cmdVelEpoch = s.host.cmdVelEpoch) (hdrive : s'.drive = s.drive)
    (hlaw : NoWrap s.log → DriveLaw m s.log ∧ (Undisturbed m s.log → Fresh m s.log)) :
    DriveInv s' where
  epoch := hepoch
  zero := by rw [hlog, hzero]; exact h.zero.cons
  command := by rw [hlog, hcommand]; exact h.command.cons
  token := by rw [hlog, hdrive]; exact h.token.cons
  intent hi := by
    rw [hdrive] at hi
    rw [hlog]
    exact .inr ⟨hm, h.intent hi⟩
  request hr := by
    rw [hdrive] at hr
    rw [hlog, hdrive]
    exact .inr ⟨hask, h.request hr⟩
  law := by rw [hlog]; exact ⟨hlaw, h.law⟩

theorem lawless {m : Mark} {past : List Mark} (hm : ¬m.Drives) :
    DriveLaw m past ∧ (Undisturbed m past → Fresh m past) :=
  ⟨fun hd => absurd hd hm, fun _ hd => absurd hd hm⟩

/-- The observations that are no CMD_VEL, no request, no frame and no boundary. -/
theorem note {o : Obs} (h : DriveInv s)
    (ho : (match o with
      | .invalidated | .cmdVel _ _ _ | .speedRequest _ _ | .driveFrame _ => false
      | _ => true) = true) : DriveInv (s.note o) := by
  refine h.cons (m := ⟨s.toCore, o⟩) ?_ ?_ (h.epoch.note ?_) rfl rfl rfl rfl fun _ => lawless ?_
  · rintro ⟨_, _, he⟩
    dsimp only at he
    rw [he] at ho
    exact Bool.false_ne_true ho
  · rintro ⟨_, _, he⟩
    dsimp only at he
    rw [he] at ho
    exact Bool.false_ne_true ho
  · rintro rfl
    exact Bool.false_ne_true ho
  · rintro ⟨_, he, _⟩
    dsimp only at he
    rw [he] at ho
    exact Bool.false_ne_true ho

theorem invalidate (h : DriveInv s) : DriveInv s.invalidate := by
  refine h.cons (m := ⟨s.toCore, .invalidated⟩) ?_ ?_ h.epoch.invalidate rfl rfl rfl rfl fun _ =>
    lawless ?_
  · rintro ⟨_, _, he⟩
    exact absurd he (by simp)
  · rintro ⟨_, _, he⟩
    exact absurd he (by simp)
  · rintro ⟨_, he, _⟩
    exact absurd he (by simp)

theorem forceInhibit (h : DriveInv s) : DriveInv s.forceInhibit := by
  unfold Firmware.forceInhibit
  split
  · exact h
  · exact h.invalidate.set rfl rfl rfl rfl id rfl rfl

theorem emergencySetBits (h : DriveInv s) {bits : Byte} {cause : Latch} :
    DriveInv (s.emergencySetBits bits cause) := by
  unfold Firmware.emergencySetBits
  by_cases hi : s.emergency = 0#8 ∧ bits ≠ 0#8
  · rw [if_pos hi]
    exact (h.invalidate.note (o := .latched bits cause) rfl).set rfl rfl rfl rfl id rfl rfl
  · rw [if_neg hi]
    exact (h.note (o := .latched bits cause) rfl).set rfl rfl rfl rfl id rfl rfl

theorem emergencyRelease (h : DriveInv s) {cause : Clear} :
    DriveInv (s.emergencyRelease cause) := by
  unfold Firmware.emergencyRelease
  split
  · exact (h.note (o := .cleared cause) rfl).set rfl rfl rfl rfl id rfl rfl
  · exact h

/-! ### The packets -/

theorem onHeartbeat (h : DriveInv s) {requested release : Bool} :
    DriveInv (Host.onHeartbeat requested release s) := by
  have hbeat : DriveInv (Host.beat requested release s) :=
    (h.note (o := .heartbeat requested release) rfl).set rfl rfl rfl rfl id rfl rfl
  have hdecided : ∀ (decision : HeartbeatEmergencyAction × Bool) (s₁ : Firmware), DriveInv s₁ →
      DriveInv (Host.decided decision s₁) := by
    intro decision s₁ h₁
    have happly : DriveInv (Host.applyHeartbeat decision.1 s₁) := by
      cases decision.1 with
      | unchanged => exact h₁
      | assert => exact h₁.emergencySetBits
      | release => exact h₁.emergencyRelease
      | autoClearWatchdog => exact h₁.emergencyRelease
    unfold Host.decided
    dsimp only
    split
    · exact happly.set rfl rfl rfl rfl id rfl rfl
    · exact happly
  exact hdecided _ _ hbeat

/-- A CMD_VEL: the entry, and statics that are worth it. -/
theorem cmdVel (h : DriveInv s) {vx wz : Binary32.Bits} {accepted : Bool}
    (hlog : s'.log = ⟨s.toCore, .cmdVel vx wz accepted⟩ :: s.log)
    (hepoch : s'.authorization.epoch = s.authorization.epoch)
    (hzero : s'.authorization.driveZeroEpoch = s.authorization.driveZeroEpoch ∨
      (⟨s.toCore, .cmdVel vx wz accepted⟩ : Mark).ZeroAccepted ∧
        s'.authorization.driveZeroEpoch = s.authorization.epoch)
    (hcommand : s'.host.cmdVelEpoch = s.host.cmdVelEpoch ∨
      accepted = true ∧ s'.host.cmdVelEpoch = s.authorization.epoch)
    (hintent : s'.drive.hostZeroIntent = false →
      (⟨s.toCore, .cmdVel vx wz accepted⟩ : Mark).MotionAccepted)
    (htoken : s'.drive.authorizationEpoch = s.drive.authorizationEpoch)
    (hleft : s'.drive.leftSpeedReq = s.drive.leftSpeedReq)
    (hright : s'.drive.rightSpeedReq = s.drive.rightSpeedReq) : DriveInv s' := by
  have hnote : Epoched (s.note (.cmdVel vx wz accepted)) := h.epoch.note (by simp)
  refine { epoch := ?_, zero := ?_, command := ?_, token := ?_, intent := fun hi => ?_
           request := fun hr => ?_, law := ?_ }
  · unfold Epoched
    rw [hepoch, hlog]
    exact hnote
  · rw [hlog]
    rcases hzero with hsame | ⟨hz, hnow⟩
    · rw [hsame]; exact h.zero.cons
    · rw [hnow]; exact hnote.current (.inl hz)
  · rw [hlog]
    rcases hcommand with hsame | ⟨hacc, hnow⟩
    · rw [hsame]; exact h.command.cons
    · rw [hnow]
      exact hnote.current (.inl ⟨vx, wz, congrArg (Obs.cmdVel vx wz) hacc⟩)
  · rw [hlog, htoken]; exact h.token.cons
  · rw [hlog]; exact .inl (hintent hi)
  · rw [hleft, hright] at hr
    rw [hlog, htoken]
    exact .inr ⟨fun ⟨_, _, he⟩ => absurd he (by simp), h.request hr⟩
  · rw [hlog]
    refine ⟨fun _ => lawless ?_, h.law⟩
    rintro ⟨_, he, _⟩
    exact absurd he (by simp)

theorem cmdVelStep (h : DriveInv s) {vx wz left right : Binary32.Bits}
    (hs : CmdVelStep vx wz left right s s') : DriveInv s' := by
  cases hs with
  | refused zeroMotionIntent =>
    have hlog : (Host.refuseCmdVel zeroMotionIntent (s.note (.cmdVel vx wz false))).log =
        ⟨s.toCore, .cmdVel vx wz false⟩ :: s.log := rfl
    exact h.cmdVel hlog rfl (.inl rfl) (.inl rfl)
      (fun e => absurd (show true = false from e) (by simp)) rfl rfl rfl
  | idleZero hidle hzero hclear =>
    have hz : (⟨s.toCore, .cmdVel vx wz true⟩ : Mark).ZeroAccepted :=
      ⟨vx, wz, rfl, hzero.1, hzero.2, hclear⟩
    unfold Host.takeIdleZero
    dsimp only
    split
    · exact h.cmdVel rfl rfl (.inr ⟨hz, rfl⟩) (.inr ⟨rfl, rfl⟩)
        (fun e => absurd (show true = false from e) (by simp)) rfl rfl rfl
    · exact h.cmdVel rfl rfl (.inr ⟨hz, rfl⟩) (.inr ⟨rfl, rfl⟩)
        (fun e => absurd (show true = false from e) (by simp)) rfl rfl rfl
  | zero hidle hzero hclear =>
    have hz : (⟨s.toCore, .cmdVel vx wz true⟩ : Mark).ZeroAccepted :=
      ⟨vx, wz, rfl, hzero.1, hzero.2, hclear⟩
    unfold Host.takeCmdVel
    dsimp only
    split
    · exact h.cmdVel rfl rfl (.inr ⟨hz, rfl⟩) (.inr ⟨rfl, rfl⟩)
        (fun e => absurd (show true = false from e) (by simp)) rfl rfl rfl
    · exact h.cmdVel rfl rfl (.inr ⟨hz, rfl⟩) (.inr ⟨rfl, rfl⟩)
        (fun e => absurd (show true = false from e) (by simp)) rfl rfl rfl
  | motion hidle hzero hfinite hclear harmed =>
    exact h.cmdVel rfl rfl (.inl rfl) (.inr ⟨rfl, rfl⟩) (fun _ => ⟨vx, wz, rfl, hzero⟩) rfl rfl rfl

/-- An IDLE leaves a request of zero, of the epoch it has begun. -/
theorem atIdle (h : DriveInv s) : DriveInv (Host.atIdle s) where
  epoch := h.epoch
  zero := h.zero
  command := h.command
  token := by
    show IssuedIn s.log s.authorization.epoch
    rw [show s.authorization.epoch = _ from h.epoch]
    exact Issued.current (K := epochs)
  intent hi := absurd (show true = false from hi) (by simp)
  request hr := by
    rcases hr with hr | hr
    · exact absurd rfl hr
    · exact absurd rfl hr
  law := h.law

theorem onHlState (h : DriveInv s) {mode : Byte} : DriveInv (Host.onHlState mode s) := by
  have h₁ : DriveInv (s.note (.hlState mode)) := h.note rfl
  unfold Host.onHlState
  dsimp only
  split
  · unfold Host.enterIdle
    split
    · exact h₁.atIdle
    · exact h₁.invalidate.atIdle
  · exact h₁.set rfl rfl rfl rfl id rfl rfl

theorem onCmdBlade (h : DriveInv s) {on direction : Byte} :
    DriveInv (Host.onCmdBlade on direction s) := by
  have h₁ := h.note (o := .cmdBlade (on != 0#8)
    (Host.bladeDecision (on != 0#8) s.toCore).retainedRequest) rfl
  unfold Host.onCmdBlade
  dsimp only
  split
  · exact h₁.set rfl rfl rfl rfl id rfl rfl
  · exact h₁.set rfl rfl rfl rfl id rfl rfl

theorem upkeep (h : DriveInv s) (hs : Upkeep s s') : DriveInv s' := by
  induction hs with
  | refl => exact h
  | inhibit _ ih => exact ih.forceInhibit
  | blade _ f hon hepoch ih => exact ih.set rfl rfl rfl rfl id rfl rfl
  | drive _ f hf hm hs ih =>
    exact ih.set rfl rfl rfl hf.authorizationEpoch (fun e => hf.hostZeroIntent.symm.trans e)
      hf.leftSpeedReq hf.rightSpeedReq
  | reply _ valid activated error reportedSpeed ih => exact ih.note rfl

theorem irq (h : DriveInv s) (i : Irq) : DriveInv (Actuation.irq B i s) := by
  cases i with
  | tick n => exact h.set rfl rfl rfl rfl id rfl rfl
  | world w => exact h.set rfl rfl rfl rfl id rfl rfl
  | heartbeat requested release => exact h.onHeartbeat
  | cmdVel vx wz left right => exact h.cmdVelStep (Host.onCmdVel_step vx wz left right s)
  | hlState mode => exact h.onHlState
  | cmdBlade on direction => exact h.onCmdBlade
  | driveDma bytes => exact h.set rfl rfl rfl rfl id rfl rfl
  | bladeDma bytes => exact h.set rfl rfl rfl rfl id rfl rfl
  | driveReceived => exact h.upkeep .driveReceiveIT
  | bladeReceived => exact h.upkeep .bladeReceiveIT

/-! ### The other routines -/

theorem bladeStep (h : DriveInv s) (hs : BladeStep B s s') : DriveInv s' := by
  cases hs with
  | rest => exact h
  | inhibit => exact h.forceInhibit
  | update f hf => exact h.set rfl rfl rfl rfl id rfl rfl
  | drop => exact h.set rfl rfl rfl rfl id rfl rfl
  | handOver transmitted =>
    have hprepared : DriveInv (Blade.prepareMsg B s) := by
      obtain ⟨s₁, hs₁, hcase⟩ := Blade.prepareMsg_cases B s
      have h₁ : DriveInv s₁ := by
        rcases hs₁ with rfl | rfl
        · exact h
        · exact h.forceInhibit
      rcases hcase with ⟨f, hf, _⟩ | ⟨_, hf⟩
      · rw [hf]; exact h₁.set rfl rfl rfl rfl id rfl rfl
      · rw [hf]; exact h₁.set rfl rfl rfl rfl id rfl rfl
    have hnoted := hprepared.note (o := .bladeFrame (Blade.prepareMsg B s).blade.command transmitted) rfl
    unfold Blade.handOver
    dsimp only
    split
    · exact hnoted.set rfl rfl rfl rfl id rfl rfl
    · exact hnoted

theorem emergencyStep (h : DriveInv s) (hs : EmergencyStep s s') : DriveInv s' := by
  cases hs with
  | rest => exact h
  | timers f hf => exact h.set rfl rfl rfl rfl id rfl rfl
  | setBits bits hb => exact h.emergencySetBits

/-! ### The motor loop -/

theorem requestSpeed (h : DriveInv s) {leftPwm rightPwm : BitVec 16} (ht : Snapped t s.log) :
    DriveInv (Motors.requestSpeed leftPwm rightPwm t s) where
  epoch := h.epoch.note (o := .speedRequest leftPwm rightPwm) (by simp)
  zero := h.zero.cons
  command := h.command.cons
  token := ht.issued.cons
  intent hi := .inr ⟨fun ⟨_, _, he⟩ => absurd he (by simp), h.intent hi⟩
  request _ := .inl ⟨⟨leftPwm, rightPwm, rfl⟩, ht⟩
  law := ⟨fun _ => lawless fun ⟨_, he, _⟩ => absurd he (by simp), h.law⟩

theorem requestBlade (h : DriveInv s) : DriveInv (Motors.requestBlade t s) := by
  have hn : DriveInv (s.note (.bladeRequest s.host.bladeOn)) := h.note rfl
  unfold Motors.requestBlade Blade.set
  dsimp only
  split
  · exact hn.set rfl rfl rfl rfl id rfl rfl
  · exact hn.set rfl rfl rfl rfl id rfl rfl

theorem output (h : DriveInv s) {snap : Motors.Snapshot} {current stop : Bool}
    {leftPwm rightPwm : BitVec 16} (ht : Snapped snap.cmdVelEpoch s.log) :
    DriveInv (Motors.output snap current stop leftPwm rightPwm s) := by
  have hrefused : DriveInv (Motors.refuseOutput s.authorization.epoch s) :=
    h.forceInhibit.set rfl rfl rfl rfl id rfl rfl
  have ht' : Snapped snap.cmdVelEpoch (Motors.refuseOutput s.authorization.epoch s).log := by
    show Snapped _ s.forceInhibit.log
    unfold Firmware.forceInhibit
    split
    · exact ht
    · exact .inr ⟨by simp [Mark.IsSnapshot], ht⟩
  have hrest : ∀ s₁ : Firmware, DriveInv s₁ → Snapped snap.cmdVelEpoch s₁.log →
      ∀ {c c' : Prop} [Decidable c] [Decidable c'], DriveInv (Motors.requestBlade snap.bladeEpoch
        (if c then Motors.requestSpeed 0#16 0#16 snap.cmdVelEpoch
            (if c' then s₁.setHost Motors.bladeOff else s₁)
          else Motors.requestSpeed leftPwm rightPwm snap.cmdVelEpoch
            (if c' then s₁.setHost Motors.bladeOff else s₁))) := by
    intro s₁ h₁ ht₁ c c' _ _
    have hoff : DriveInv (if c' then s₁.setHost Motors.bladeOff else s₁) ∧
        Snapped snap.cmdVelEpoch (if c' then s₁.setHost Motors.bladeOff else s₁).log := by
      by_cases hc' : c'
      · rw [if_pos hc']; exact ⟨h₁.set rfl rfl rfl rfl id rfl rfl, ht₁⟩
      · rw [if_neg hc']; exact ⟨h₁, ht₁⟩
    by_cases hc : c
    · rw [if_pos hc]; exact (hoff.1.requestSpeed hoff.2).requestBlade
    · rw [if_neg hc]; exact (hoff.1.requestSpeed hoff.2).requestBlade
  unfold Motors.output
  dsimp only
  cases Motors.outputLinksHealthy snap s.toCore with
  | true => exact hrest s h ht
  | false => exact hrest _ hrefused ht'

theorem motorStep (h : DriveInv s) {snap : Motors.Snapshot} (ht : Snapped snap.cmdVelEpoch s.log)
    (hs : MotorStep snap s s') : DriveInv s' := by
  cases hs with
  | rest => exact h
  | inhibit => exact h.forceInhibit
  | update f hf => exact h.set rfl rfl hf.cmdVelEpoch rfl id rfl rfl
  | confirmRearm =>
    unfold Motors.confirmRearm
    split
    · exact h.set rfl rfl rfl rfl id rfl rfl
    · have h₁ : DriveInv (s.setHost Motors.requireRearm) := h.set rfl rfl rfl rfl id rfl rfl
      exact h₁.forceInhibit
  | dropRetained =>
    unfold Motors.dropRetained
    split
    · exact h.set rfl rfl rfl rfl id rfl rfl
    · exact h
  | dropTargets =>
    unfold Motors.dropTargets
    split
    · exact h.set rfl rfl rfl rfl (fun e => absurd (show true = false from e) (by simp)) rfl rfl
    · exact h
  | watchVelocity =>
    unfold Motors.watchVelocity
    split
    · exact h.set rfl rfl rfl rfl (fun e => absurd (show true = false from e) (by simp)) rfl rfl
    · exact h
  | dropBlade =>
    unfold Motors.dropBlade
    split
    · exact h.set rfl rfl rfl rfl id rfl rfl
    · exact h
  | watchHeartbeat =>
    unfold Motors.watchHeartbeat
    dsimp only
    split
    · have h₁ : DriveInv (s.setHost fun t => { t with
          heartbeatOnlyLatch := if s.world.anyPhysicalEmergency then false
            else if s.emergencyState = 0#8 then true else t.heartbeatOnlyLatch }) :=
        h.set rfl rfl rfl rfl id rfl rfl
      exact h₁.emergencySetBits.set rfl rfl rfl rfl id rfl rfl
    · exact h
  | output current stop leftPwm rightPwm => exact h.output ht

theorem powerUp {now : Nat} {w : World} : DriveInv (.powerUp B now w) where
  epoch := rfl
  zero := Granted.of_ne fun _ hg => zero_no_token hg
  command := Granted.of_ne fun _ hg => zero_no_token hg
  token := Issued.of_ne fun _ hg => zero_no_token hg
  intent hi := absurd (show true = false from hi) (by simp)
  request hr := by
    rcases hr with hr | hr
    · exact absurd rfl hr
    · exact absurd rfl hr
  law := trivial

end DriveInv

/-! ## The log of the motor loop -/

/-- The log grows, and by no snapshot. -/
def Grows (s s' : Firmware) : Prop :=
  ∃ later, s'.log = later ++ s.log ∧ ∀ m ∈ later, ¬m.IsSnapshot

namespace Grows

variable {s s' s'' : Firmware}

theorem refl : Grows s s := ⟨[], rfl, by simp⟩

theorem trans (h : Grows s s') (h' : Grows s' s'') : Grows s s'' := by
  obtain ⟨later, hlog, hlater⟩ := h
  obtain ⟨later', hlog', hlater'⟩ := h'
  refine ⟨later' ++ later, by rw [hlog', hlog, List.append_assoc], fun m hm => ?_⟩
  rcases List.mem_append.1 hm with hm | hm
  · exact hlater' m hm
  · exact hlater m hm

theorem note {o : Obs} (ho : o ≠ .snapshot) : Grows s (s.note o) :=
  ⟨[⟨s.toCore, o⟩], rfl, by simpa [Mark.IsSnapshot] using ho⟩

theorem same (h : s'.log = s.log) : Grows s s' := ⟨[], h, by simp⟩

theorem ite {c : Prop} [Decidable c] (h : Grows s s') (h' : Grows s s'') :
    Grows s (if c then s' else s'') := by
  by_cases hc : c
  · rw [if_pos hc]; exact h
  · rw [if_neg hc]; exact h'

theorem invalidate : Grows s s.invalidate := (note (o := .invalidated) (by simp)).trans (same rfl)

theorem forceInhibit : Grows s s.forceInhibit := .ite .refl (invalidate.trans (same rfl))

theorem emergencySetBits {bits : Byte} {cause : Latch} :
    Grows s (s.emergencySetBits bits cause) := by
  have hnote : ∀ s₁ : Firmware, Grows s₁ { s₁.note (.latched bits cause) with
      emergency := s₁.emergency ||| bits } :=
    fun s₁ => (note (o := .latched bits cause) (by simp)).trans (same rfl)
  unfold Firmware.emergencySetBits
  by_cases hi : s.emergency = 0#8 ∧ bits ≠ 0#8
  · rw [if_pos hi]; exact invalidate.trans (hnote _)
  · rw [if_neg hi]; exact hnote s

theorem requestSpeed {leftPwm rightPwm : BitVec 16} :
    Grows s (Motors.requestSpeed leftPwm rightPwm t s) :=
  (note (o := .speedRequest leftPwm rightPwm) (by simp)).trans (same rfl)

theorem requestBlade : Grows s (Motors.requestBlade t s) := by
  have hnote : Grows s (s.note (.bladeRequest s.host.bladeOn)) := note (by simp)
  refine hnote.trans ?_
  unfold Motors.requestBlade Blade.set
  dsimp only
  split
  · exact same rfl
  · exact same rfl

theorem output {snap : Motors.Snapshot} {current stop : Bool} {leftPwm rightPwm : BitVec 16} :
    Grows s (Motors.output snap current stop leftPwm rightPwm s) := by
  refine trans ?_ requestBlade
  refine trans ?_ (.ite requestSpeed requestSpeed)
  refine trans ?_ (.ite (same rfl) .refl)
  exact .ite .refl (forceInhibit.trans (same rfl))

theorem motorStep {snap : Motors.Snapshot} (h : MotorStep snap s s') : Grows s s' := by
  cases h with
  | rest => exact .refl
  | inhibit => exact forceInhibit
  | update f hf => exact same rfl
  | confirmRearm =>
    have hrequired : Grows s (s.setHost Motors.requireRearm) := same rfl
    exact .ite .refl (hrequired.trans forceInhibit)
  | dropRetained => exact .ite (same rfl) .refl
  | dropTargets => exact .ite (same rfl) .refl
  | watchVelocity => exact .ite (same rfl) .refl
  | dropBlade => exact .ite (same rfl) .refl
  | watchHeartbeat =>
    have hlatch : ∀ f : Host → Host, Grows s ((s.setHost f).emergencySetBits 1#8
        (.watchdog s.world.anyPhysicalEmergency)) := fun f =>
      show Grows (s.setHost f) _ from emergencySetBits
    exact .ite ((hlatch _).trans (same rfl)) .refl
  | output current stop leftPwm rightPwm => exact output

theorem snapped (h : Grows s s') (ht : Snapped t s.log) : Snapped t s'.log := by
  obtain ⟨later, hlog, hlater⟩ := h
  rw [hlog]
  exact ht.later hlater

end Grows

/-! ## A pass of the driver -/

/-- Since the speeds were read an IDLE came, and unless motion was taken after it the host
    wants zero. -/
def Disarmed (s : Firmware) : Prop :=
  Since (fun m => ¬m.IsTarget) (fun m _ => m.IsIdle) s.log ∧
    (s.drive.hostZeroIntent = false → Disturbed s.log)

/-- What happens between two statements of a pass. -/
structure Between (s s' : Firmware) : Prop where
  message : s'.drive.message = s.drive.message
  log : ∃ later, s'.log = later ++ s.log ∧ ∀ m ∈ later, ¬m.IsSource
  disarmed : Disarmed s → Disarmed s'
  request : Disarmed s' ∨ s'.drive.leftSpeedReq = s.drive.leftSpeedReq ∧
    s'.drive.rightSpeedReq = s.drive.rightSpeedReq ∧
    s'.drive.authorizationEpoch = s.drive.authorizationEpoch

namespace Between

variable {B : Board} {s s' s'' : Firmware}

theorem refl : Between s s := ⟨rfl, ⟨[], rfl, by simp⟩, id, .inr ⟨rfl, rfl, rfl⟩⟩

theorem trans (h : Between s s') (h' : Between s' s'') : Between s s'' where
  message := h'.message.trans h.message
  log := by
    obtain ⟨later, hlog, hlater⟩ := h.log
    obtain ⟨later', hlog', hlater'⟩ := h'.log
    refine ⟨later' ++ later, by rw [hlog', hlog, List.append_assoc], fun m hm => ?_⟩
    rcases List.mem_append.1 hm with hm | hm
    · exact hlater' m hm
    · exact hlater m hm
  disarmed hd := h'.disarmed (h.disarmed hd)
  request := by
    rcases h'.request with hd | ⟨hl', hr', ht'⟩
    · exact .inl hd
    · rcases h.request with hd | ⟨hl, hr, ht⟩
      · exact .inl (h'.disarmed hd)
      · exact .inr ⟨hl'.trans hl, hr'.trans hr, ht'.trans ht⟩

/-- The driver's request is left alone, and so is a zero the host wants. -/
theorem quiet (later : List Mark) (hlog : s'.log = later ++ s.log)
    (hlater : ∀ m ∈ later, ¬m.IsSource) (hmessage : s'.drive.message = s.drive.message)
    (hintent : s'.drive.hostZeroIntent = false → s.drive.hostZeroIntent = false)
    (hleft : s'.drive.leftSpeedReq = s.drive.leftSpeedReq)
    (hright : s'.drive.rightSpeedReq = s.drive.rightSpeedReq)
    (htoken : s'.drive.authorizationEpoch = s.drive.authorizationEpoch) : Between s s' where
  message := hmessage
  log := ⟨later, hlog, hlater⟩
  disarmed hd := by
    have htarget : ∀ m ∈ later, ¬m.IsTarget := fun m hm ht => hlater m hm (.inl ht)
    refine ⟨by rw [hlog]; exact hd.1.later htarget, fun hi => ?_⟩
    rw [hlog]
    exact (hd.2 (hintent hi)).later htarget
  request := .inr ⟨hleft, hright, htoken⟩

/-- Something else is set. -/
theorem set (hlog : s'.log = s.log) (hdrive : s'.drive = s.drive) : Between s s' :=
  quiet [] hlog (by simp) (by rw [hdrive]) (fun hi => by rw [hdrive] at hi; exact hi)
    (by rw [hdrive]) (by rw [hdrive]) (by rw [hdrive])

/-- The entries of the interrupts are no sources. -/
theorem note {o : Obs} (ho : ¬(⟨s.toCore, o⟩ : Mark).IsSource) : Between s (s.note o) :=
  quiet [⟨s.toCore, o⟩] rfl (by simpa using ho) rfl id rfl rfl rfl

theorem ite {c : Prop} [Decidable c] (h : Between s s') (h' : Between s s'') :
    Between s (if c then s' else s'') := by
  by_cases hc : c
  · rw [if_pos hc]; exact h
  · rw [if_neg hc]; exact h'

theorem invalidate : Between s s.invalidate :=
  (note (o := .invalidated) (by simp [Mark.isSource_iff])).trans (.set rfl rfl)

theorem forceInhibit : Between s s.forceInhibit :=
  .ite .refl (invalidate.trans (.set rfl rfl))

theorem emergencySetBits {bits : Byte} {cause : Latch} :
    Between s (s.emergencySetBits bits cause) := by
  have hnote : ∀ s₁ : Firmware, Between s₁ { s₁.note (.latched bits cause) with
      emergency := s₁.emergency ||| bits } :=
    fun s₁ => (note (o := .latched bits cause) (by simp [Mark.isSource_iff])).trans (.set rfl rfl)
  unfold Firmware.emergencySetBits
  by_cases hi : s.emergency = 0#8 ∧ bits ≠ 0#8
  · rw [if_pos hi]; exact invalidate.trans (hnote _)
  · rw [if_neg hi]; exact hnote s

theorem emergencyRelease {cause : Clear} : Between s (s.emergencyRelease cause) :=
  .ite ((note (o := .cleared cause) (by simp [Mark.isSource_iff])).trans (.set rfl rfl)) .refl

theorem onHeartbeat {requested release : Bool} :
    Between s (Host.onHeartbeat requested release s) := by
  have hbeat : Between s (Host.beat requested release s) :=
    (note (o := .heartbeat requested release) (by simp [Mark.isSource_iff])).trans (.set rfl rfl)
  have hdecided : ∀ (decision : HeartbeatEmergencyAction × Bool) (s₁ : Firmware),
      Between s₁ (Host.decided decision s₁) := by
    intro decision s₁
    have happly : Between s₁ (Host.applyHeartbeat decision.1 s₁) := by
      cases decision.1 with
      | unchanged => exact .refl
      | assert => exact .emergencySetBits
      | release => exact .emergencyRelease
      | autoClearWatchdog => exact .emergencyRelease
    exact happly.trans (.ite (.set rfl rfl) .refl)
  exact hbeat.trans (hdecided _ _)

/-- A zero, or a refusal: the host wants zero. -/
theorem cmdVelZero (vx wz : Binary32.Bits) (accepted : Bool)
    (hlog : s'.log = ⟨s.toCore, .cmdVel vx wz accepted⟩ :: s.log)
    (hdrive : s'.drive = { s.drive with hostZeroIntent := true }) : Between s s' :=
  quiet [⟨s.toCore, .cmdVel vx wz accepted⟩] hlog (by simp [Mark.isSource_iff])
    (by rw [hdrive]) (fun hi => by rw [hdrive] at hi; exact absurd (show true = false from hi) (by simp))
    (by rw [hdrive]) (by rw [hdrive]) (by rw [hdrive])

theorem cmdVelStep {vx wz left right : Binary32.Bits} (h : CmdVelStep vx wz left right s s') :
    Between s s' := by
  cases h with
  | refused zeroMotionIntent =>
    exact cmdVelZero vx wz false rfl rfl
  | idleZero hidle hzero hclear =>
    unfold Host.takeIdleZero
    dsimp only
    split
    · exact cmdVelZero vx wz true rfl rfl
    · exact cmdVelZero vx wz true rfl rfl
  | zero hidle hzero hclear =>
    unfold Host.takeCmdVel
    dsimp only
    split
    · exact cmdVelZero vx wz true rfl rfl
    · exact cmdVelZero vx wz true rfl rfl
  | motion hidle hzero hfinite hclear harmed =>
    have hmark : ¬(⟨s.toCore, .cmdVel vx wz true⟩ : Mark).IsSource := by simp [Mark.isSource_iff]
    refine { message := rfl, log := ⟨[_], rfl, by simpa using hmark⟩, disarmed := fun hd => ?_
             request := .inr ⟨rfl, rfl, rfl⟩ }
    exact ⟨.inr ⟨fun ht => hmark (.inl ht), hd.1⟩, fun _ => .inl ⟨⟨vx, wz, rfl, hzero⟩, hd.1⟩⟩

theorem onHlState {mode : Byte} : Between s (Host.onHlState mode s) := by
  have hn : Between s (s.note (.hlState mode)) := note (by simp [Mark.isSource_iff])
  unfold Host.onHlState
  dsimp only
  split
  · rename_i hidle
    have hmark : ¬(⟨s.toCore, .hlState mode⟩ : Mark).IsSource := by simp [Mark.isSource_iff]
    have hinvalidated : ¬(⟨(s.note (.hlState mode)).toCore, .invalidated⟩ : Mark).IsSource := by
      simp [Mark.isSource_iff]
    have hfirst : Since (fun m => ¬m.IsTarget) (fun m _ => m.IsIdle)
        (s.note (.hlState mode)).log := .inl ⟨mode, rfl, hidle⟩
    -- Both ways the driver is left disarmed.
    have hidled : ∀ s₁ : Firmware, (∃ later, s₁.log = later ++ s.log ∧ ∀ m ∈ later, ¬m.IsSource) →
        s₁.drive.message = s.drive.message →
        Since (fun m => ¬m.IsTarget) (fun m _ => m.IsIdle) s₁.log → Between s (Host.atIdle s₁) := by
      intro s₁ hlog hmessage hsince
      have hd : Disarmed (Host.atIdle s₁) :=
        ⟨hsince, fun hi => absurd (show true = false from hi) (by simp)⟩
      exact { message := hmessage, log := hlog, disarmed := fun _ => hd, request := .inl hd }
    unfold Host.enterIdle
    split
    · exact hidled _ ⟨[_], rfl, by simpa using hmark⟩ rfl hfirst
    · refine hidled _ ⟨[_, _], rfl, ?_⟩ rfl (.inr ⟨fun ht => hinvalidated (.inl ht), hfirst⟩)
      intro m hm
      rcases List.mem_cons.1 hm with rfl | hm
      · exact hinvalidated
      · rw [List.mem_singleton.1 hm]; exact hmark
  · exact hn.trans (.set rfl rfl)

theorem upkeep (h : Upkeep s s') : Between s s' := by
  induction h with
  | refl => exact .refl
  | inhibit _ ih => exact ih.trans .forceInhibit
  | blade _ f hon hepoch ih => exact ih.trans (.set rfl rfl)
  | drive _ f hf hm hs ih =>
    exact ih.trans (quiet [] rfl (by simp) hm (fun hi => hf.hostZeroIntent.symm.trans hi)
      hf.leftSpeedReq hf.rightSpeedReq hf.authorizationEpoch)
  | reply _ valid activated error reportedSpeed ih =>
    exact ih.trans (.note (by simp [Mark.isSource_iff]))

theorem irq {i : Irq} : Between s (Actuation.irq B i s) := by
  cases i with
  | tick n => exact .set rfl rfl
  | world w => exact .set rfl rfl
  | heartbeat requested release => exact .onHeartbeat
  | cmdVel vx wz left right => exact .cmdVelStep (Host.onCmdVel_step vx wz left right s)
  | hlState mode => exact .onHlState
  | cmdBlade on direction =>
    exact (note (o := .cmdBlade (on != 0#8) (Host.bladeDecision (on != 0#8) s.toCore).retainedRequest)
      (by simp [Mark.isSource_iff])).trans (.ite (.set rfl rfl) (.set rfl rfl))
  | driveDma bytes => exact quiet [] rfl (by simp) rfl id rfl rfl rfl
  | bladeDma bytes => exact .set rfl rfl
  | driveReceived => exact .upkeep .driveReceiveIT
  | bladeReceived => exact .upkeep .bladeReceiveIT

end Between

/-- The speeds that are read, or those of the reverse, are of the token `t`. -/
def Aimed (t : Epoch) (log : List Mark) : Prop :=
  Since (fun m => ¬m.IsTarget) (fun m past => m.obs = .reverse ∧ IssuedIn (m :: past) t ∨
    m.obs = .speedRead ∧ Asked t past) log

theorem Asked.issued (h : Asked t log) : IssuedIn log t :=
  Issued.of_since h fun _ _ hp => hp.2.issued.cons

/-- Speeds that may go into a frame: of the driver's token, or taken back by an IDLE. -/
def Backed (s : Firmware) : Prop := Disarmed s ∨ Aimed s.drive.authorizationEpoch s.log

/-- The frame that is built turns a wheel only by speeds that may go into it. -/
def Sourced (s : Firmware) : Prop :=
  s.drive.message.leftSpeed ≠ 0#8 ∨ s.drive.message.rightSpeed ≠ 0#8 → Backed s

def passGuard : Guard Answer Firmware where
  inv := DriveInv
  rely := Between
  answers _ := True
  refl _ := .refl
  trans := .trans

section
variable {B : Board} {s s' : Firmware} {α : Type}

theorem Between.backed (h : Between s s') (hb : Backed s) : Backed s' := by
  rcases h.request with hd | ⟨_, _, ht⟩
  · exact .inl hd
  · rcases hb with hd | ha
    · exact .inl (h.disarmed hd)
    · obtain ⟨later, hlog, hlater⟩ := h.log
      refine .inr ?_
      rw [ht, hlog]
      exact Since.later ha fun m hm htarget => hlater m hm (.inl htarget)

theorem Between.sourced (h : Between s s') (hs : Sourced s) : Sourced s' := by
  intro hm
  rw [h.message] at hm
  exact h.backed (hs hm)

theorem stable_sourced : passGuard.Stable Sourced := fun _ _ hs hr _ => Between.sourced hr hs

theorem stable_true : passGuard.Stable fun _ => True := fun _ _ _ _ _ => trivial

theorem stable_imp {c : Prop} : passGuard.Stable fun s => c → Backed s :=
  fun _ _ hs hr _ hc => Between.backed hr (hs hc)

/-- A statement that leaves alone what the frame is made of. -/
def Calmly (s s' : Firmware) : Prop := (DriveInv s → DriveInv s') ∧ Between s s'

theorem Calmly.refl : Calmly s s := ⟨id, .refl⟩

theorem Calmly.update {f : Drive → Drive} (hf : Drive.Kept s.drive (f s.drive))
    (hm : (f s.drive).message = s.drive.message) : Calmly s (s.setDrive f) :=
  ⟨fun h => h.set rfl rfl rfl hf.authorizationEpoch (fun e => hf.hostZeroIntent.symm.trans e)
      hf.leftSpeedReq hf.rightSpeedReq,
    .quiet [] rfl (by simp) hm (fun e => hf.hostZeroIntent.symm.trans e) hf.leftSpeedReq
      hf.rightSpeedReq hf.authorizationEpoch⟩

variable {P : Firmware → Prop} {rightDir leftDir : Bool}

theorem calmly_triple (hP : passGuard.Stable P) {m : Task α} (hm : m.Does Calmly) :
    passGuard.Triple P m fun _ => P :=
  .does hm hP fun s s' hi hp hs => ⟨hs.1 hi, hP s s' hp hs.2 (hs.1 hi)⟩

/-! ### The frame -/

variable {r : DriveRequest}

theorem DriveLaw.of_gates (h : DriveInv s) (hw : NoWrap s.log)
    (hopen : Drive.stopped s.toCore = false) : DriveLaw ⟨s.toCore, .driveFrame r⟩ s.log := by
  intro _
  simp only [Drive.stopped, shouldStopOutput, Authorization.driveRequestIsCurrent,
    Bool.or_eq_false_iff, bne_eq_false_iff_eq, beq_eq_false_iff_ne, Bool.not_eq_false',
    Bool.and_eq_true, beq_iff_eq] at hopen
  obtain ⟨⟨⟨⟨⟨hemergency, hidle⟩, hinhibited⟩, hhealthy⟩, hintent⟩, _, hzero⟩ := hopen
  refine ⟨hemergency, hidle, hinhibited, hhealthy, ?_⟩
  refine ((h.intent hintent).behind (h.epoch.lately hw hzero h.zero) ?_ ?_).mono (fun _ he => he)
    (fun _ _ he => he)
  · rintro a _ ⟨vx, wz, ha, _⟩ hn
    exact hn ⟨vx, wz, ha⟩
  · rintro a _ ⟨vx, wz, ha, hmotion⟩ ⟨vx', wz', ha', hz, hz', _⟩
    obtain ⟨rfl, rfl, _⟩ := Obs.cmdVel.inj (ha.symm.trans ha')
    exact hmotion ⟨hz, hz'⟩

theorem Aimed.fresh (h : DriveInv s) (hw : NoWrap s.log) (ha : Aimed t s.log)
    (ht : t = s.authorization.epoch) : Fresh ⟨s.toCore, .driveFrame r⟩ s.log := by
  intro _
  have hnow : t = epochs.token (generation Mark.isBreak s.log) := ht.trans h.epoch
  -- A source is no boundary, so the generation of what stands behind it is its own.
  have hbehind : ∀ {m : Mark} {past : List Mark}, m.isBreak = false →
      generation Mark.isBreak (m :: past) = generation Mark.isBreak s.log →
      generation Mark.isBreak past < epochBound ∧
        t = epochs.token (generation Mark.isBreak past) := by
    intro m past hm hsame
    rw [generation_cons_of_calm hm] at hsame
    rw [hsame]
    exact ⟨hw, hnow⟩
  have hissued : ∀ (m : Mark) (past : List Mark), (m.obs = .reverse ∧ IssuedIn (m :: past) t ∨
      m.obs = .speedRead ∧ Asked t past) → IssuedIn (m :: past) t := by
    rintro m past (⟨_, hi⟩ | ⟨_, hasked⟩)
    · exact hi
    · exact hasked.issued.cons
  refine (Issued.stretch ha hissued hw hnow).mono (fun _ hv => hv) fun m past hm => ?_
  rcases hm with ⟨⟨hm, _⟩ | ⟨hm, hasked⟩, hsame⟩
  · exact .inl hm
  obtain ⟨hg, hn⟩ := hbehind (by simp [Mark.isBreak, hm]) hsame
  refine .inr ⟨hm, (Issued.stretch hasked (fun _ _ hp => hp.2.issued.cons) hg hn).mono
    (fun _ hv => hv) fun q before hq => ?_⟩
  obtain ⟨⟨⟨left, right, hq⟩, hsnapped⟩, hsame'⟩ := hq
  rw [generation_cons_of_calm (by simp [Mark.isBreak, hm])] at hsame
  obtain ⟨hg, hn⟩ := hbehind (by simp [Mark.isBreak, hq]) (hsame'.trans hsame)
  refine ⟨⟨left, right, hq⟩, (Issued.stretch hsnapped (fun _ _ hp => hp.2.issued.cons) hg hn).mono
    (fun _ hv => hv) fun p first hp => ?_⟩
  obtain ⟨⟨hp, hworth⟩, hsame''⟩ := hp
  have hcalm : p.isBreak = false := by
    rw [Mark.isBreak, show p.obs = .snapshot from hp]
    rfl
  rw [generation_cons_of_calm (by simp [Mark.isBreak, hq])] at hsame'
  obtain ⟨hg, hn⟩ := hbehind hcalm (hsame''.trans (hsame'.trans hsame))
  exact ⟨hp, hworth.lately hg hn⟩

/-- An entry for a frame. -/
theorem DriveInv.noteFrame (h : DriveInv s)
    (hlaw : NoWrap s.log → DriveLaw ⟨s.toCore, .driveFrame r⟩ s.log ∧
      (Undisturbed ⟨s.toCore, .driveFrame r⟩ s.log → Fresh ⟨s.toCore, .driveFrame r⟩ s.log)) :
    DriveInv (s.note (.driveFrame r)) := by
  refine h.cons (m := ⟨s.toCore, .driveFrame r⟩) ?_ ?_ (h.epoch.note (by simp)) rfl rfl rfl rfl hlaw
  · rintro ⟨_, _, he⟩
    exact absurd he (by simp)
  · rintro ⟨_, _, he⟩
    exact absurd he (by simp)

theorem DriveInv.noteStill (h : DriveInv s) (hl : s.drive.message.leftSpeed = 0#8)
    (hr : s.drive.message.rightSpeed = 0#8) : DriveInv (s.note (.driveFrame s.drive.message)) := by
  refine h.noteFrame fun _ => lawless ?_
  rintro ⟨r, he, hne⟩
  obtain rfl := Obs.driveFrame.inj he
  rcases hne with hne | hne
  · exact hne hl
  · exact hne hr

theorem DriveInv.handOver (h : DriveInv s) (hs : Sourced s) {abandon : Bool} :
    DriveInv (Drive.handOver abandon s) := by
  unfold Drive.handOver
  dsimp only
  cases hstop : Drive.stopped s.toCore with
  | true =>
    rw [if_pos rfl]
    have hset : DriveInv (s.setDrive fun d => { d with
        message := (Drive.request 0#8 0#8 false false).gated true
        state := if abandon then .run else d.state }) := h.set rfl rfl rfl rfl id rfl rfl
    exact hset.noteStill rfl rfl
  | false =>
    rw [if_neg Bool.false_ne_true]
    refine h.noteFrame fun hw => ⟨.of_gates h hw hstop, fun hundisturbed hdrives => ?_⟩
    have hdisturbed := hundisturbed hdrives
    obtain ⟨r, he, hne⟩ := hdrives
    obtain rfl := Obs.driveFrame.inj he
    simp only [Drive.stopped, shouldStopOutput, Authorization.driveRequestIsCurrent,
      Bool.or_eq_false_iff, Bool.not_eq_false', Bool.and_eq_true, beq_iff_eq] at hstop
    rcases hs hne with hd | ha
    · exact absurd (hd.2 hstop.1.2) hdisturbed
    · exact ha.fresh h hw hstop.2.1 ⟨_, rfl, hne⟩

/-! ### The statements of a pass -/

theorem prepareMsg_rule {leftSpeed rightSpeed : Byte} {Q : Firmware → Prop}
    (hP : passGuard.Stable P) (h : ∀ s stop, P s → Q (s.setDrive fun d => { d with
      message := (Drive.request leftSpeed rightSpeed leftDir rightDir).gated stop })) :
    passGuard.Triple P (Drive.prepareMsg leftSpeed rightSpeed leftDir rightDir) (fun _ => Q) := by
  have hget : ∀ {β : Type} {r : Firmware → β}, passGuard.Triple P (.get r) (fun _ => P) :=
    fun {_ _} => calmly_triple hP (.get fun _ => .refl)
  refine hget.bind fun emergency => hget.bind fun idle => hget.bind fun inhibited => ?_
  refine (calmly_triple hP (does_healthyUnmasked fun _ => .refl)).bind fun healthy => ?_
  refine hget.bind fun zeroIntent => hget.bind fun epoch => hget.bind fun current => ?_
  exact .modify hP fun s hi hp => ⟨DriveInv.set hi rfl rfl rfl rfl id rfl rfl, h s _ hp⟩

theorem gated_speeds {l r : Byte} {stop : Bool} :
    (((Drive.request l r leftDir rightDir).gated stop).leftSpeed ≠ 0#8 → l ≠ 0#8) ∧
      (((Drive.request l r leftDir rightDir).gated stop).rightSpeed ≠ 0#8 → r ≠ 0#8) := by
  unfold DriveRequest.gated
  split
  · exact ⟨fun h => absurd rfl h, fun h => absurd rfl h⟩
  · exact ⟨id, id⟩

theorem prepareMsg_triple {leftSpeed rightSpeed : Byte} :
    passGuard.Triple (fun s => leftSpeed ≠ 0#8 ∨ rightSpeed ≠ 0#8 → Backed s)
      (Drive.prepareMsg leftSpeed rightSpeed leftDir rightDir) (fun _ => Sourced) :=
  prepareMsg_rule stable_imp fun _ _ hp hm => hp (hm.imp gated_speeds.1 gated_speeds.2)

theorem prepareStop_triple :
    passGuard.Triple P (Drive.prepareMsg 0#8 0#8 leftDir rightDir) (fun _ => Sourced) :=
  prepareMsg_triple.conseq (fun _ _ _ hne => by simp at hne) fun _ _ _ hs => hs

theorem does_linkDown : Drive.linkDown.Does Calmly :=
  .bind (.get fun _ => .refl) fun _ => .ite .ret
    (.bind (does_healthyUnmasked fun _ => .refl) fun _ => .ret)

/-- The speeds that have been read are those of the request, and it may go into a frame; or it
    has been taken back. -/
def Read (p : Byte → Byte → Prop) (s : Firmware) : Prop :=
  Disarmed s ∨ p s.drive.leftSpeedReq s.drive.rightSpeedReq ∧
    (s.drive.leftSpeedReq ≠ 0#8 ∨ s.drive.rightSpeedReq ≠ 0#8 →
      Aimed s.drive.authorizationEpoch s.log)

theorem stable_read {p : Byte → Byte → Prop} : passGuard.Stable (Read p) := by
  intro s s' hs hr _
  have hb : Between s s' := hr
  rcases hb.request with hd | ⟨hl, hr, ht⟩
  · exact .inl hd
  · rcases hs with hd | ⟨hp, ha⟩
    · exact .inl (hb.disarmed hd)
    · obtain ⟨later, hlog, hlater⟩ := hb.log
      rw [← hl, ← hr] at hp
      refine .inr ⟨hp, fun hne => ?_⟩
      rw [hl, hr] at hne
      rw [ht, hlog]
      exact Since.later (ha hne) fun m hm htarget => hlater m hm (.inl htarget)

theorem prepareSpeeds_triple :
    passGuard.Triple (fun _ => True) Drive.prepareSpeeds (fun _ => Sourced) := by
  have hleft : passGuard.Triple (fun _ => True)
      (.call fun _ s => (s.drive.leftSpeedReq, s.note .speedRead))
      (fun l => Read fun x _ => x = l) := by
    refine .call stable_true fun _ s _ hi _ => ?_
    have h : DriveInv s := hi
    exact ⟨h.note rfl, .inr ⟨rfl, fun hne => .inl (.inr ⟨rfl, h.request hne⟩)⟩⟩
  refine hleft.bind fun leftSpeed => ?_
  have hright : passGuard.Triple (Read fun x _ => x = leftSpeed)
      (.get fun s => s.drive.rightSpeedReq) (fun r => Read fun x y => x = leftSpeed ∧ y = r) := by
    refine (Guard.Triple.get stable_read).conseq (fun _ _ h => h) fun r s _ hs => ?_
    rcases hs.1 with hd | ⟨hl, ha⟩
    · exact .inl hd
    · exact .inr ⟨⟨hl, hs.2⟩, ha⟩
  refine hright.bind fun rightSpeed => ?_
  refine (calmly_triple stable_read (.get fun _ => .refl)).bind fun leftDir => ?_
  refine (calmly_triple stable_read (.get fun _ => .refl)).bind fun rightDir => ?_
  refine prepareMsg_triple.conseq (fun s _ hs hne => ?_) fun _ _ _ hs => hs
  rcases hs with hd | ⟨⟨rfl, rfl⟩, ha⟩
  · exact .inl hd
  · exact .inr (ha hne)

theorem prepareRequest_triple :
    passGuard.Triple (fun _ => True) Drive.prepareRequest (fun _ => Sourced) :=
  (calmly_triple stable_true does_linkDown).bind fun _ =>
    .ite (fun _ => prepareStop_triple) fun _ => prepareSpeeds_triple

theorem goBackward_triple : passGuard.Triple Sourced Drive.goBackward (fun _ => Sourced) :=
  calmly_triple stable_sourced (.modify fun _ => .update ⟨rfl, rfl, rfl, rfl⟩ rfl)

theorem hit_triple : passGuard.Triple Sourced Drive.hit (fun _ => Sourced) := by
  refine (calmly_triple stable_sourced (.get fun _ => .refl)).bind fun status => ?_
  cases status with
  | mowing => exact goBackward_triple
  | docking =>
    exact (calmly_triple stable_sourced (does_ask fun _ => .refl)).bind fun _ =>
      .ite (fun _ => prepareStop_triple) fun _ => goBackward_triple
  | undocking => exact .ret fun _ _ hs => hs
  | idle => exact .ret fun _ _ hs => hs
  | record => exact .ret fun _ _ hs => hs

theorem does_collision : Drive.collision.Does Calmly := by
  have hstop : Drive.hallStop.Does Calmly :=
    .bind (does_ask fun _ => .refl) fun _ => .ite .ret (does_ask fun _ => .refl)
  refine .bind hstop fun _ => .ite ?_ .ret
  exact .bind (.get fun _ => .refl) fun _ => .ite .ret (.get fun _ => .refl)

theorem handOver_triple {abandon : Bool} :
    passGuard.Triple Sourced (.modify (Drive.handOver abandon)) (fun _ _ => True) :=
  .modify stable_sourced fun _ hi hs => ⟨DriveInv.handOver hi hs, trivial⟩

theorem inhibit_triple (hP : passGuard.Stable P) : passGuard.Triple P inhibit (fun _ => P) :=
  calmly_triple hP (.modify fun _ => ⟨DriveInv.forceInhibit, .forceInhibit⟩)

theorem running_triple : passGuard.Triple (fun _ => True) Drive.running (fun _ _ => True) := by
  refine (calmly_triple stable_true (does_healthyUnmasked fun _ => .refl)).bind fun healthy => ?_
  refine Guard.Triple.bind (.ite (fun _ => inhibit_triple stable_true) fun _ => .ret fun _ _ h => h)
    fun _ => ?_
  refine prepareRequest_triple.bind fun _ => ?_
  refine (calmly_triple stable_sourced (.get fun _ => .refl)).bind fun error => ?_
  refine Guard.Triple.bind (.ite (fun _ => prepareStop_triple) fun _ => .ret fun _ _ h => h)
    fun _ => ?_
  refine (calmly_triple stable_sourced does_collision).bind fun stop => ?_
  exact Guard.Triple.bind (.ite (fun _ => hit_triple) fun _ => .ret fun _ _ h => h)
    fun _ => handOver_triple

theorem update_triple {f : Tick → Drive → Drive} (hf : ∀ now d, Drive.Kept d (f now d))
    (hm : ∀ now d, (f now d).message = d.message) :
    passGuard.Triple Sourced (Drive.update f) (fun _ => Sourced) :=
  calmly_triple stable_sourced (.modify fun _ => .update (hf _ _) (hm _ _))

theorem prepareReverse_triple :
    passGuard.Triple (fun _ => True) Drive.prepareReverse (fun _ => Sourced) := by
  have hbad : Drive.emergencyOrLinkDown.Does Calmly :=
    .bind (.get fun _ => .refl) fun _ => .ite .ret does_linkDown
  refine (calmly_triple stable_true hbad).bind fun bad => .ite (fun _ => ?_) fun _ => ?_
  · refine (inhibit_triple stable_true).bind fun _ => prepareStop_triple.bind fun _ => ?_
    exact update_triple (fun _ _ => ⟨rfl, rfl, rfl, rfl⟩) fun _ _ => rfl
  · have hmark : passGuard.Triple (fun _ => True) (.modify fun s => s.note .reverse)
        (fun _ s => Drive.BACKWARD_PWM ≠ 0#8 ∨ Drive.BACKWARD_PWM ≠ 0#8 → Backed s) := by
      refine .modify stable_true fun s hi _ => ?_
      have h : DriveInv s := hi
      exact ⟨h.note rfl, fun _ => .inr (.inl (.inl ⟨rfl, h.token.cons⟩))⟩
    refine hmark.bind fun _ => prepareMsg_triple.bind fun _ => update_triple ?_ ?_
    · intro now d
      by_cases h : Drive.BACKWARD_MS < now - d.timestamp
      · simp only [if_pos h]; exact ⟨rfl, rfl, rfl, rfl⟩
      · simp only [if_neg h]; exact ⟨rfl, rfl, rfl, rfl⟩
    · intro now d
      split <;> rfl

/-- The frame of the wait turns nothing. -/
def Still (s : Firmware) : Prop :=
  s.drive.message.leftSpeed = 0#8 ∧ s.drive.message.rightSpeed = 0#8

theorem stable_still : passGuard.Stable Still := by
  intro s s' hs hr _
  have hb : Between s s' := hr
  exact ⟨by rw [hb.message]; exact hs.1, by rw [hb.message]; exact hs.2⟩

theorem waiting_triple : passGuard.Triple (fun _ => True) Drive.waiting (fun _ _ => True) := by
  have hprepare : passGuard.Triple (fun _ => True) (Drive.prepareMsg 0#8 0#8 false false)
      (fun _ => Still) := by
    refine prepareMsg_rule stable_true fun s stop _ => ⟨?_, ?_⟩
    · by_contra hne
      exact gated_speeds.1 hne rfl
    · by_contra hne
      exact gated_speeds.2 hne rfl
  have hframe : passGuard.Triple Still (.modify fun s => s.note (.driveFrame s.drive.message))
      (fun _ _ => True) :=
    .modify stable_still fun s hi hs => ⟨DriveInv.noteStill hi hs.1 hs.2, trivial⟩
  refine hprepare.bind fun _ => hframe.bind fun _ => ?_
  refine (calmly_triple stable_true (.get fun _ => .refl)).bind fun emergency => ?_
  refine .ite (fun _ => ?_) fun _ => ?_
  · exact calmly_triple stable_true (.modify fun _ => .update ⟨rfl, rfl, rfl, rfl⟩ rfl)
  · refine calmly_triple stable_true (.modify fun s => .update ?_ ?_)
    · by_cases h : Drive.WAIT_MS < s.tick - s.drive.timestamp
      · simp only [if_pos h]; exact ⟨rfl, rfl, rfl, rfl⟩
      · simp only [if_neg h]; exact ⟨rfl, rfl, rfl, rfl⟩
    · dsimp only
      split <;> rfl

theorem app10ms_triple : passGuard.Triple (fun _ => True) Drive.app10ms (fun _ _ => True) := by
  refine (calmly_triple stable_true (.get fun _ => .refl)).bind fun state => ?_
  cases state with
  | init => exact calmly_triple stable_true (.modify fun _ => .update ⟨rfl, rfl, rfl, rfl⟩ rfl)
  | run => exact running_triple
  | backward => exact prepareReverse_triple.bind fun _ => handOver_triple
  | wait => exact waiting_triple

/-! ### The other routines -/

theorem motorsHandler_triple :
    passGuard.Triple (fun _ => True) Motors.motorsHandler (fun _ _ => True) := by
  have hsnap : passGuard.Triple (fun _ => True) Motors.takeSnapshot
      (fun snap s => Snapped snap.cmdVelEpoch s.log) := by
    refine .call stable_true fun _ s _ hi _ => ?_
    have h : DriveInv s := hi
    exact ⟨h.note rfl, .inl ⟨rfl, h.command⟩⟩
  refine hsnap.bind fun snap => ?_
  have hstable : passGuard.Stable fun s => Snapped snap.cmdVelEpoch s.log := by
    intro s s' hs hr _
    obtain ⟨later, hlog, hlater⟩ := Between.log hr
    show Snapped _ s'.log
    rw [hlog]
    exact hs.later fun m hm hsnapshot => hlater m hm (.inr hsnapshot)
  refine Guard.Triple.conseq (.does Motors.does_cycle hstable fun s s' hi ht hs => ?_)
    (fun _ _ ht => ht) fun _ _ _ _ => trivial
  have h : DriveInv s := hi
  exact ⟨h.motorStep ht hs, (Grows.motorStep hs).snapped ht⟩

theorem preserves_pass {m : Task Unit} (h : m.Does fun s s' => DriveInv s → DriveInv s') :
    passGuard.Triple (fun _ => True) m (fun _ _ => True) :=
  .does h stable_true fun _ _ hi _ hs => ⟨hs hi, trivial⟩

theorem emergencyController_pass :
    passGuard.Triple (fun _ => True) Emergency.emergencyController (fun _ _ => True) := by
  refine preserves_pass ?_
  have hget : ∀ {α : Type} {r : Firmware → α},
      (Routine.get r : Task α).Does fun s s' => DriveInv s → DriveInv s' :=
    fun {_ _} => .get fun _ => id
  have hstep : ∀ s s', EmergencyStep s s' → DriveInv s → DriveInv s' :=
    fun _ _ hs h => h.emergencyStep hs
  refine .bind hget fun yellow => .bind hget fun white => .bind hget fun blue => ?_
  refine .bind hget fun red => .bind hget fun tilt => .bind hget fun play => ?_
  refine .bind hget fun accelerometer => .bind hget fun now => ?_
  refine .bind (Emergency.does_pollStop.mono hstep) fun _ => ?_
  refine .bind (Emergency.does_pollWheels.mono hstep) fun _ => ?_
  refine .bind (Emergency.does_pollTilt.mono hstep) fun _ => ?_
  refine .bind (.call fun _ s h => ?_) fun held => .ite ?_ .ret
  · exact (DriveInv.note h (o := .playPoll now play (s.emergency != 0#8) _) rfl).set rfl rfl rfl rfl
      id rfl rfl
  · refine .bind (.modify fun _ h => h.emergencyRelease) fun _ => ?_
    exact .modify fun _ h => h.set rfl rfl rfl rfl id rfl rfl

theorem drive_keeps (B : Board) : (machine B).Keeps passGuard (fun _ => True) where
  stable := stable_true
  irq i _ h := ⟨DriveInv.irq h i, .irq⟩
  body r := by
    cases r with
    | motorsHandler => exact motorsHandler_triple
    | driveApp => exact app10ms_triple
    | bladeApp => exact preserves_pass (Blade.does_app.mono fun _ _ hs h => h.bladeStep hs)
    | emergencyController => exact emergencyController_pass
    | onboardSensorFault =>
      exact preserves_pass (.bind (.modify fun _ h => h.set rfl rfl rfl rfl id rfl rfl) fun _ =>
        .modify fun _ h => h.emergencySetBits)
    | setTimeouts oneWheelLift bothWheelsLift tilt stopButton playClear =>
      exact preserves_pass (.modify fun _ h => h.set rfl rfl rfl rfl id rfl rfl)
  cut k := k.elim
  boot k := k.elim

theorem driveInv_run (B : Board) (now : Nat) (w : World) (es : List FirmwareEvent) :
    DriveInv ((machine B).run (start B now w) es).st :=
  ((drive_keeps B).run (c := start B now w) ⟨DriveInv.powerUp, trivial⟩ fun e _ => by
    cases e <;> trivial).1

end

/-- **A wheel that turns was armed**, and unless its pass was disturbed, its speeds were
    computed and requested after the last boundary. -/
theorem drive_rearm (B : Board) (now : Nat) (w : World) (es : List FirmwareEvent)
    (hw : NoWrap ((machine B).run (start B now w) es).st.log) :
    Always DriveLaw ((machine B).run (start B now w) es).st.log ∧
      (Always Undisturbed ((machine B).run (start B now w) es).st.log →
        Always Fresh ((machine B).run (start B now w) es).st.log) := by
  have hlaws : Always (fun m past => DriveLaw m past ∧ (Undisturbed m past → Fresh m past))
      ((machine B).run (start B now w) es).st.log := hw.always (driveInv_run B now w es).law
  generalize ((machine B).run (start B now w) es).st.log = log at hlaws
  induction log with
  | nil => exact ⟨trivial, fun _ => trivial⟩
  | cons m past ih =>
    have hpast := ih hlaws.2
    exact ⟨⟨hlaws.1.1, hpast.1⟩, fun hu => ⟨hlaws.1.2 hu.1, hpast.2 hu.2⟩⟩

-- A log of a closed run is compared as it is written, and never computed by the elaborator.
attribute [local irreducible] Machine.run

theorem drive_rearm_mowing :
    Always DriveLaw (Session.log Session.mowing) ∧
      (Always Undisturbed (Session.log Session.mowing) → Always Fresh (Session.log Session.mowing)) ∧
      (Session.log Session.mowing).any Mark.drivesLeft = true := by
  unfold Session.log
  have h := drive_rearm .yardforce500 1000 Session.calm Session.mowing (by decide +kernel)
  exact ⟨h.1, h.2, by decide +kernel⟩

/-- A pass of the driver that has read the speeds is stopped; an IDLE, a zero, the mode and
    motion again arrive; it goes on. -/
def Session.rearmed : List FirmwareEvent :=
  armed ++ [motion] ++ pass .motorsHandler 25 true ++ pass .driveApp 12 false ++
    [.irq (.hlState 0#8), .irq (.cmdVel 0#32 0#32 0#32 0#32),
      .irq (.hlState Host.HL_MODE_AUTONOMOUS), motion] ++
    List.replicate 40 (.step { yes := false, leftPwm := 0#16, rightPwm := 0#16 })

/-- No boundary stands between the last frame of a log and the read of its speeds. -/
theorem Fresh.newest (h : Always Fresh log) (hd : log.head?.any Mark.drivesLeft = true) :
    Since (fun v => v.isBreak = false) (fun t _ => t.obs = .speedRead ∨ t.obs = .reverse)
      log.tail := by
  cases log with
  | nil =>
    exact absurd hd (by simp)
  | cons m past =>
    refine (h.1 (Mark.drives_of_drivesLeft hd)).mono (fun _ hv => hv.1) ?_
    rintro t _ (ht | ⟨ht, _⟩)
    · exact .inr ht
    · exact .inl ht

/-- The frame of the stopped pass drives the speeds that were requested before the IDLE. -/
theorem drive_rearm_disturbed :
    NoWrap (Session.log Session.rearmed) ∧ ¬Always Fresh (Session.log Session.rearmed) := by
  refine ⟨by decide +kernel, fun h => ?_⟩
  have hnot : ¬Since (fun v : Mark => v.isBreak = false)
      (fun t _ => t.obs = .speedRead ∨ t.obs = .reverse) (Session.log Session.rearmed).tail := by
    decide +kernel
  exact hnot (Fresh.newest h (by decide +kernel))

end Actuation
end Mowgli
