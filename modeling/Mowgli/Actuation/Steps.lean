import Mowgli.Actuation.Loop
import Mowgli.Lib.Generation

/-!
# Steps — what one statement of the main loop can do

The routines of the main loop are walked once, here. Each of the four parts of the loop
has the list of what its statements do to the memory (`BladeStep`, `DriveStep`,
`MotorStep`, `EmergencyStep`), and each routine is shown to do nothing else. An invariant
is then proved against the list.

A statement that only writes statics no invariant reads is an `update` with a frame: it
names what it leaves alone.
-/

namespace Mowgli
namespace Actuation

section

variable {α : Type} {p : Firmware → Firmware → Prop}

/-! ## Statements the parts share -/

theorem does_ask (h : ∀ s, p s s) : ask.Does p := .call fun _ s => h s

theorem does_healthyUnmasked {seenValid lastError : Core → Bool} {lastValid : Core → Tick}
    {timeout : Tick} (h : ∀ s, p s s) :
    (healthyUnmasked seenValid lastError lastValid timeout).Does p := by
  refine .bind (.get h) fun seen => .ite ?_ .ret
  refine .bind (.get h) fun error => .ite .ret ?_
  exact .bind (.get h) fun now => .bind (.get h) fun last => .ret

/-! ## The blade driver -/

/-- The request, the reversal and the last reply are left alone. -/
structure Blade.Kept (b b' : Blade) : Prop where
  onOff : b'.onOff = b.onOff
  onEpoch : b'.onEpoch = b.onEpoch
  direction : b'.direction = b.direction
  runDirection : b'.runDirection = b.runDirection
  reversePending : b'.reversePending = b.reversePending
  offSent : b'.offSent = b.offSent
  zeroSeen : b'.zeroSeen = b.zeroSeen
  stopSince : b'.stopSince = b.stopSince
  zeroSince : b'.zeroSince = b.zeroSince
  lastFeedbackSeq : b'.lastFeedbackSeq = b.lastFeedbackSeq
  zeroEpoch : b'.zeroEpoch = b.zeroEpoch
  feedback : b'.feedback = b.feedback

/-- The request is dropped, and with it a reversal. -/
def Blade.dropped (b : Blade) : Blade :=
  { b with onOff := false, reversePending := false, offSent := false, zeroSeen := false }

inductive BladeStep (B : Board) : Firmware → Firmware → Prop
  | rest {s} : BladeStep B s s
  | inhibit {s} : BladeStep B s s.forceInhibit
  | update {s} (f : Blade → Blade) (h : Blade.Kept s.blade (f s.blade)) :
    BladeStep B s (s.setBlade f)
  | drop {s} : BladeStep B s (s.setBlade Blade.dropped)
  | handOver {s} (transmitted : Bool) : BladeStep B s (Blade.handOver B transmitted s)

namespace Blade

variable {B : Board}

theorem does_inhibit : inhibit.Does (BladeStep B) := .modify fun _ => .inhibit

theorem does_update {f : Tick → Blade → Blade} (h : ∀ now b, Kept b (f now b)) :
    (update f).Does (BladeStep B) := .modify fun s => .update (f s.tick) (h s.tick s.blade)

theorem does_lasted {limit : Tick} : (lasted limit).Does (BladeStep B) := .get fun _ => .rest

theorem does_enter {state : BladeState} : (enter state).Does (BladeStep B) :=
  .bind (does_update fun _ _ => ⟨rfl, rfl, rfl, rfl, rfl, rfl, rfl, rfl, rfl, rfl, rfl, rfl⟩)
    fun _ => does_update fun _ _ => ⟨rfl, rfl, rfl, rfl, rfl, rfl, rfl, rfl, rfl, rfl, rfl, rfl⟩

theorem does_ask : ask.Does (BladeStep B) := Actuation.does_ask fun _ => .rest

theorem does_retryStartup : retryStartup.Does (BladeStep B) := by
  refine .bind (does_update fun _ _ => ?_) fun _ => .bind (does_update fun _ _ => ?_) fun _ => does_enter
  · constructor <;> rfl
  · constructor <;> rfl

theorem does_retryInhibited : retryInhibited.Does (BladeStep B) :=
  .bind does_retryStartup fun _ => does_inhibit

theorem does_logicBoot : logicBoot.Does (BladeStep B) := by
  refine .bind (.get fun _ => .rest) fun retry => .bind does_lasted fun due => .ite ?_ .ret
  refine .bind does_ask fun ready => .ite ?_ .ret
  refine .bind (does_update fun _ _ => ?_) fun _ => .bind (does_update fun _ _ => ?_) fun _ =>
    .bind (does_update fun _ _ => ?_) fun _ => .bind does_ask fun received => .ite ?_ does_retryInhibited
  · constructor <;> rfl
  · constructor <;> rfl
  · constructor <;> rfl
  · exact .bind does_ask fun sent => .ite does_enter does_retryInhibited

theorem does_versionAnswer : versionAnswer.Does (BladeStep B) := by
  refine .bind (.get fun _ => .rest) fun complete => .ite ?_ .ret
  refine .bind (.get fun _ => .rest) fun valid => .ite ?_ does_retryStartup
  refine .bind does_ask fun sent => .ite ?_ does_retryInhibited
  refine .bind (does_update fun _ _ => ?_) fun _ => .bind (does_update fun _ _ => ?_) fun _ => does_enter
  · constructor <;> rfl
  · constructor <;> rfl

theorem does_versionWait : versionWait.Does (BladeStep B) := by
  refine .bind does_lasted fun due => .bind does_ask fun ready => .bind (.whenever does_versionAnswer) fun _ => ?_
  exact .bind (.get fun _ => .rest) fun late => .whenever does_retryInhibited

theorem does_closeWindow : closeWindow.Does (BladeStep B) := by
  refine .bind (.get fun _ => .rest) fun armed => .ite (.bind does_ask fun ready => .ite ?_ ?_) .ret
  · refine .bind (does_update fun _ _ => ?_) fun _ => .ret
    constructor <;> rfl
  · refine .bind (.get fun _ => .rest) fun early => .ite .ret (.bind does_ask fun reclaimed => .ite ?_ ?_)
    · refine .bind (does_update fun _ _ => ?_) fun _ => .bind does_inhibit fun _ => .ret
      constructor <;> rfl
    · refine .bind (does_update fun _ _ => ?_) fun _ => .bind does_inhibit fun _ => .ret
      constructor <;> rfl

theorem does_openWindow : openWindow.Does (BladeStep B) := by
  refine .bind does_ask fun taken => .ite ?_ (.bind does_inhibit fun _ => .ret)
  refine .bind (does_update fun _ _ => ?_) fun _ => .bind (does_update fun _ _ => ?_) fun _ => .ret
  · constructor <;> rfl
  · constructor <;> rfl

theorem does_running : (running B).Does (BladeStep B) := by
  refine .bind (.get fun _ => .rest) fun error => .bind (.whenever (.modify fun s => BladeStep.drop)) fun _ => ?_
  refine .bind does_closeWindow fun closed => .ite (.bind does_openWindow fun opened => .ite ?_ .ret) .ret
  exact .bind does_ask fun ready => .whenever (.call fun w s => .handOver w.yes)

theorem does_app : (app B).Does (BladeStep B) := by
  refine .bind (does_healthyUnmasked fun _ => .rest) fun healthy => .bind (.whenever does_inhibit) fun _ => ?_
  refine .bind (.get fun _ => .rest) fun state => ?_
  cases state with
  | resetHold => exact .bind does_lasted fun due => .whenever does_enter
  | logicBoot => exact does_logicBoot
  | versionWait => exact does_versionWait
  | matrixWait => exact .bind does_lasted fun due => .bind does_ask fun ready => .whenever does_enter
  | powerWait =>
    refine .bind does_lasted fun due => .whenever (does_update fun _ _ => ?_)
    constructor <;> rfl
  | init =>
    refine does_update fun _ _ => ?_
    constructor <;> rfl
  | run => exact does_running

end Blade

/-- What the choice of a command leaves alone. -/
structure Blade.SameRequest (b b' : Blade) : Prop where
  onOff : b'.onOff = b.onOff
  onEpoch : b'.onEpoch = b.onEpoch
  direction : b'.direction = b.direction
  runDirection : b'.runDirection = b.runDirection
  feedback : b'.feedback = b.feedback

theorem Blade.qualifiedForReverse_same (now : Tick) (b : Blade) :
    SameRequest b (qualifiedForReverse now b).2 := by
  unfold qualifiedForReverse countZero syncZero
  constructor <;> (dsimp only; repeat' split) <;> rfl

theorem Blade.startReversal_same {b : Blade} : SameRequest b (startReversal b) := by
  unfold startReversal
  constructor <;> split <;> rfl

theorem Blade.chooseCommand_same (B : Board) (now : Tick) (b : Blade) :
    SameRequest b (chooseCommand B now b) := by
  have hs := startReversal_same (b := b)
  have hq := qualifiedForReverse_same now (startReversal b)
  unfold chooseCommand
  by_cases hp : (startReversal b).reversePending = true
  · simp only [hp, if_true]
    exact ⟨hq.onOff.trans hs.onOff, hq.onEpoch.trans hs.onEpoch, hq.direction.trans hs.direction,
      hq.runDirection.trans hs.runDirection, hq.feedback.trans hs.feedback⟩
  · simp only [hp]
    exact ⟨hs.onOff, hs.onEpoch, hs.direction, hs.runDirection, hs.feedback⟩

/-- A stop is prepared: no request is left, and no reversal. -/
structure Blade.Stopped (B : Board) (b b' : Blade) : Prop where
  command : b'.command = B.stopCommand
  onOff : b'.onOff = false
  reversePending : b'.reversePending = false
  offSent : b'.offSent = false
  zeroSeen : b'.zeroSeen = false
  direction : b'.direction = b.direction
  runDirection : b'.runDirection = b.runDirection
  feedback : b'.feedback = b.feedback

/-- **What `blademotor_prepareMsg` can do.** It stops, or the request is authorized over
    healthy links and its command is chosen: a request that is held back by a link has lost
    its authorization by then. -/
theorem Blade.prepareMsg_cases (B : Board) (s : Firmware) :
    ∃ s₁, (s₁ = s ∨ s₁ = s.forceInhibit) ∧
      ((∃ f : Blade → Blade, prepareMsg B s = s₁.setBlade f ∧ Stopped B s₁.blade (f s₁.blade)) ∨
        onRequestIsAuthorized s₁.toCore = true ∧
          prepareMsg B s = s₁.setBlade (chooseCommand B s₁.tick)) := by
  by_cases hh : feedbackHealthy s.tick s.blade = true
  · refine ⟨s, .inl rfl, ?_⟩
    unfold prepareMsg
    simp only [hh, if_true]
    by_cases hon : s.blade.onOff = true
    · by_cases ha : onRequestIsAuthorized s.toCore = true
      · refine .inr ⟨ha, ?_⟩
        have hi : s.inhibited = false := by
          simp only [onRequestIsAuthorized, permitted, Bool.and_eq_true, Bool.not_eq_true'] at ha
          exact ha.2.1.2
        simp [hon, ha, hi, hh]
      · refine .inl ⟨fun b => { cancelOnRequest b with command := B.stopCommand }, ?_, ?_⟩
        · simp [hon, ha, Firmware.setBlade, cancelOnRequest]
        · constructor <;> rfl
    · refine .inl ⟨_, by simp [hon]; rfl, ?_⟩
      constructor <;> first | rfl | simpa using hon
  · refine ⟨s.forceInhibit, .inr rfl, .inl ?_⟩
    have hi : s.forceInhibit.inhibited = true := by
      unfold Firmware.forceInhibit
      by_cases h : s.inhibited = true
      · simp [h]
      · simp [h]
    have ha : onRequestIsAuthorized s.forceInhibit.toCore = false := by
      simp [onRequestIsAuthorized, permitted, hi]
    unfold prepareMsg
    simp only [hh, Bool.false_eq_true, if_false]
    by_cases hon : s.forceInhibit.blade.onOff = true
    · refine ⟨fun b => { cancelOnRequest b with command := B.stopCommand }, ?_, ?_⟩
      · simp [hon, ha, Firmware.setBlade, cancelOnRequest]
      · constructor <;> rfl
    · refine ⟨_, by simp [hon]; rfl, ?_⟩
      constructor <;> first | rfl | simpa using hon

/-! ## The drive driver -/

/-- The request of the motor loop is left alone. -/
structure Drive.Kept (d d' : Drive) : Prop where
  hostZeroIntent : d'.hostZeroIntent = d.hostZeroIntent
  authorizationEpoch : d'.authorizationEpoch = d.authorizationEpoch
  leftSpeedReq : d'.leftSpeedReq = d.leftSpeedReq
  rightSpeedReq : d'.rightSpeedReq = d.rightSpeedReq

inductive DriveStep : Firmware → Firmware → Prop
  | rest {s} : DriveStep s s
  | inhibit {s} : DriveStep s s.forceInhibit
  | update {s} (f : Drive → Drive) (h : Drive.Kept s.drive (f s.drive)) :
    DriveStep s (s.setDrive f)
  | read {s} : DriveStep s (s.note .speedRead)
  | reverse {s} : DriveStep s (s.note .reverse)
  | handOver {s} (abandon : Bool) : DriveStep s (Drive.handOver abandon s)
  /-- The frame of the wait after a reverse. -/
  | frame {s} : DriveStep s (s.note (.driveFrame s.drive.message))

namespace Drive

theorem does_update {f : Tick → Drive → Drive} (h : ∀ now d, Kept d (f now d)) :
    (update f).Does DriveStep := .modify fun s => .update (f s.tick) (h s.tick s.drive)

theorem does_inhibit : inhibit.Does DriveStep := .modify fun _ => .inhibit

theorem does_healthy : feedbackHealthyUnmasked.Does DriveStep := does_healthyUnmasked fun _ => .rest

theorem does_prepareMsg {leftSpeed rightSpeed : Byte} {leftDir rightDir : Bool} :
    (prepareMsg leftSpeed rightSpeed leftDir rightDir).Does DriveStep := by
  refine .bind (.get fun _ => .rest) fun emergency => .bind (.get fun _ => .rest) fun idle => ?_
  refine .bind (.get fun _ => .rest) fun inhibited => .bind does_healthy fun healthy => ?_
  refine .bind (.get fun _ => .rest) fun zeroIntent => .bind (.get fun _ => .rest) fun epoch => ?_
  exact .bind (.get fun _ => .rest) fun current => does_update fun _ _ => ⟨rfl, rfl, rfl, rfl⟩

theorem does_linkDown : linkDown.Does DriveStep :=
  .bind (.get fun _ => .rest) fun _ => .ite .ret (.bind does_healthy fun _ => .ret)

theorem does_collision : collision.Does DriveStep := by
  refine .bind (.bind (does_ask fun _ => .rest) fun left => .ite .ret (does_ask fun _ => .rest)) fun stop => ?_
  exact .ite (.bind (.get fun _ => .rest) fun dir => .ite .ret (.get fun _ => .rest)) .ret

theorem does_goBackward : goBackward.Does DriveStep := does_update fun _ _ => ⟨rfl, rfl, rfl, rfl⟩

theorem does_prepareSpeeds : prepareSpeeds.Does DriveStep :=
  .bind (.call fun _ _ => .read) fun _ => .bind (.get fun _ => .rest) fun _ =>
    .bind (.get fun _ => .rest) fun _ => .bind (.get fun _ => .rest) fun _ => does_prepareMsg

theorem does_prepareRequest : prepareRequest.Does DriveStep :=
  .bind does_linkDown fun _ => .ite does_prepareMsg does_prepareSpeeds

theorem does_hit : hit.Does DriveStep := by
  refine .bind (.get fun _ => .rest) fun status => ?_
  cases status with
  | mowing => exact does_goBackward
  | docking => exact .bind (does_ask fun _ => .rest) fun docked => .ite does_prepareMsg does_goBackward
  | undocking => exact .ret
  | idle => exact .ret
  | record => exact .ret

theorem does_running : running.Does DriveStep := by
  refine .bind does_healthy fun healthy => .bind (.whenever does_inhibit) fun _ => ?_
  refine .bind does_prepareRequest fun _ => .bind (.get fun _ => .rest) fun error => ?_
  refine .bind (.whenever does_prepareMsg) fun _ => .bind does_collision fun stop => ?_
  exact .bind (.whenever does_hit) fun _ => .modify fun _ => .handOver false

theorem does_prepareReverse : prepareReverse.Does DriveStep := by
  refine .bind (.bind (.get fun _ => .rest) fun emergency => .ite .ret does_linkDown) fun bad => .ite ?_ ?_
  · exact .bind does_inhibit fun _ => .bind does_prepareMsg fun _ => does_update fun _ _ => ⟨rfl, rfl, rfl, rfl⟩
  · refine .bind (.modify fun _ => .reverse) fun _ => .bind does_prepareMsg fun _ => ?_
    refine does_update fun now d => ?_
    by_cases h : BACKWARD_MS < now - d.timestamp
    · simp only [if_pos h]; exact ⟨rfl, rfl, rfl, rfl⟩
    · simp only [if_neg h]; exact ⟨rfl, rfl, rfl, rfl⟩

theorem does_backward : backward.Does DriveStep :=
  .bind does_prepareReverse fun _ => .modify fun _ => .handOver true

theorem does_waiting : waiting.Does DriveStep := by
  refine .bind does_prepareMsg fun _ => .bind (.modify fun _ => .frame) fun _ => ?_
  refine .bind (.get fun _ => .rest) fun emergency => .ite (does_update fun _ _ => ⟨rfl, rfl, rfl, rfl⟩) ?_
  refine does_update fun now d => ?_
  by_cases h : WAIT_MS < now - d.timestamp
  · simp only [if_pos h]; exact ⟨rfl, rfl, rfl, rfl⟩
  · simp only [if_neg h]; exact ⟨rfl, rfl, rfl, rfl⟩

theorem does_app10ms : app10ms.Does DriveStep := by
  refine .bind (.get fun _ => .rest) fun state => ?_
  cases state with
  | init => exact does_update fun _ _ => ⟨rfl, rfl, rfl, rfl⟩
  | run => exact does_running
  | backward => exact does_backward
  | wait => exact does_waiting

end Drive

/-! ## The motor loop -/

/-- No intent is added: the blade request can only be dropped by the loop. -/
structure Host.Kept (h h' : Host) : Prop where
  cmdVelEpoch : h'.cmdVelEpoch = h.cmdVelEpoch
  lastCmdVel : h'.lastCmdVel = h.lastCmdVel
  validCmdVelSeen : h'.validCmdVelSeen = h.validCmdVelSeen
  targetBlade : h'.targetBlade = h.targetBlade
  targetBladeEpoch : h'.targetBladeEpoch = h.targetBladeEpoch
  lastHeartbeat : h'.lastHeartbeat = h.lastHeartbeat
  heartbeatSeen : h'.heartbeatSeen = h.heartbeatSeen
  heartbeatOnlyLatch : h'.heartbeatOnlyLatch = h.heartbeatOnlyLatch

inductive MotorStep (snap : Motors.Snapshot) : Firmware → Firmware → Prop
  | rest {s} : MotorStep snap s s
  | inhibit {s} : MotorStep snap s s.forceInhibit
  | update {s} (f : Host → Host) (h : Host.Kept s.host (f s.host)) : MotorStep snap s (s.setHost f)
  | confirmRearm {s} : MotorStep snap s (Motors.confirmRearm snap s)
  | dropRetained {s} : MotorStep snap s (Motors.dropRetained s)
  | dropTargets {s} : MotorStep snap s (Motors.dropTargets snap s)
  | watchVelocity {s} : MotorStep snap s (Motors.watchVelocity s)
  | dropBlade {s} : MotorStep snap s (Motors.dropBlade s)
  | watchHeartbeat {s} : MotorStep snap s (Motors.watchHeartbeat s)
  | output {s} (current stop : Bool) (leftPwm rightPwm : BitVec 16) :
    MotorStep snap s (Motors.output snap current stop leftPwm rightPwm s)

namespace Motors

variable {snap : Snapshot}

theorem does_update {f : Host → Host} (h : ∀ t, Host.Kept t (f t)) :
    (update f).Does (MotorStep snap) := .modify fun s => .update f (h s.host)

theorem does_inhibit : inhibit.Does (MotorStep snap) := .modify fun _ => .inhibit

theorem does_rearmLinks : (rearmLinks snap).Does (MotorStep snap) := by
  refine .bind (does_update fun _ => ⟨rfl, rfl, rfl, rfl, rfl, rfl, rfl, rfl⟩) fun _ => ?_
  refine .bind (.get fun _ => .rest) fun required => .ite does_inhibit ?_
  exact .bind (.get fun _ => .rest) fun done => .ite (.modify fun _ => .confirmRearm) .ret

theorem does_decideBlade : (decideBlade snap).Does (MotorStep snap) := by
  refine .bind (.get fun _ => .rest) fun required => ?_
  refine .bind (does_update fun _ => ⟨rfl, rfl, rfl, rfl, rfl, rfl, rfl, rfl⟩) fun _ => ?_
  exact .whenever (.modify fun _ => .dropRetained)

theorem does_bladeOff : (update bladeOff).Does (MotorStep snap) :=
  does_update fun _ => ⟨rfl, rfl, rfl, rfl, rfl, rfl, rfl, rfl⟩

theorem does_hardStop {current : Bool} : (hardStop snap current).Does (MotorStep snap) := by
  refine .bind (.whenever (.modify fun _ => .dropTargets)) fun _ => .bind (.get fun _ => .rest) fun required => ?_
  refine .ite (.bind does_bladeOff fun _ => .ret) (.ite .ret (.ite (.bind does_bladeOff fun _ => .ret) ?_))
  refine .bind (.get fun _ => .rest) fun age => .bind (.whenever (.modify fun _ => .watchVelocity)) fun _ => ?_
  exact .bind (.whenever (.modify fun _ => .dropBlade)) fun _ => .ret

theorem does_cycle : (cycle snap).Does (MotorStep snap) := by
  refine .bind (.get fun _ => .rest) fun current => .bind does_rearmLinks fun _ => ?_
  refine .bind does_decideBlade fun _ => .bind does_hardStop fun stop => ?_
  refine .bind (.call fun _ _ => .rest) fun pwm => .bind (.modify fun _ => .watchHeartbeat) fun _ => ?_
  exact .modify fun _ => .output current stop pwm.1 pwm.2

end Motors

/-! ## The emergency inputs -/

/-- The poll of PLAY and the clear it may bring are not among the steps: what the clear is
    worth depends on the poll before it. -/
inductive EmergencyStep : Firmware → Firmware → Prop
  | rest {s} : EmergencyStep s s
  | timers {s} (f : EmergencyTimers → EmergencyTimers)
    (h : (f s.timers).playStarted = s.timers.playStarted) : EmergencyStep s (s.setTimers f)
  | setBits {s} (bits : Byte) (h : ∀ e : Byte, e ||| bits ≠ 1#8) :
    EmergencyStep s (s.emergencySetBits bits .sensor)

namespace Emergency

/-- No sensor has the bit of the host and the watchdog. -/
theorem does_setBits {bits : Byte} (h : ∀ e : Byte, e ||| bits ≠ 1#8) :
    (setBits bits).Does EmergencyStep := .modify fun _ => .setBits bits h

variable {now : Tick}

theorem does_trip {active : Bool} {limit started : EmergencyTimers → Tick}
    {start : Tick → EmergencyTimers → EmergencyTimers}
    (h : ∀ since t, (start since t).playStarted = t.playStarted) :
    (trip active now limit started start).Does EmergencyStep :=
  .call fun _ s => .timers _ (h _ s.timers)

theorem does_pollStop {yellow white : Bool} : (pollStop yellow white now).Does EmergencyStep := by
  refine .bind (does_trip fun _ _ => rfl) fun tripped => .ite ?_ .ret
  exact .bind (.whenever (does_setBits (by decide))) fun _ => .whenever (does_setBits (by decide))

theorem does_pollWheels {blue red : Bool} : (pollWheels blue red now).Does EmergencyStep := by
  refine .bind (does_trip fun _ _ => rfl) fun both => .bind (.whenever (does_setBits (by decide))) fun _ => ?_
  refine .bind (does_trip fun _ _ => rfl) fun left => .bind (.whenever (does_setBits (by decide))) fun _ => ?_
  exact .bind (does_trip fun _ _ => rfl) fun right => .whenever (does_setBits (by decide))

theorem does_pollTilt {accelerometer tilt : Bool} :
    (pollTilt accelerometer tilt now).Does EmergencyStep := by
  refine .bind (does_trip fun _ _ => rfl) fun leaning => .bind (.whenever (does_setBits (by decide))) fun _ => ?_
  exact .bind (does_trip fun _ _ => rfl) fun tilted => .whenever (does_setBits (by decide))

end Emergency

/-! ## The packets -/

/-- **What a CMD_VEL can do.** It is refused, or taken as the zero of the re-arm in IDLE, or
    taken as a command. -/
inductive CmdVelStep (vx wz left right : Binary32.Bits) (s : Firmware) : Firmware → Prop
  | refused (zeroMotionIntent : Bool) :
    CmdVelStep vx wz left right s (Host.refuseCmdVel zeroMotionIntent (s.note (.cmdVel vx wz false)))
  | idleZero (hidle : s.status = .idle) (hzero : isZero vx = true ∧ isZero wz = true)
    (hclear : s.emergencyState = 0#8) :
    CmdVelStep vx wz left right s (Host.takeIdleZero { s.note (.cmdVel vx wz true) with
      authorization := { s.authorization with driveZeroEpoch := s.authorization.epoch } })
  | zero (hidle : s.status ≠ .idle) (hzero : isZero vx = true ∧ isZero wz = true)
    (hclear : s.emergencyState = 0#8) :
    CmdVelStep vx wz left right s (Host.takeCmdVel true left right
      { s.note (.cmdVel vx wz true) with
        authorization := { s.authorization with driveZeroEpoch := s.authorization.epoch } })
  | motion (hidle : s.status ≠ .idle) (hzero : ¬(isZero vx = true ∧ isZero wz = true))
    (hfinite : Binary32.isFinite vx = true ∧ Binary32.isFinite wz = true)
    (hclear : s.emergencyState = 0#8)
    (harmed : s.authorization.driveZeroEpoch = s.authorization.epoch) :
    CmdVelStep vx wz left right s
      (Host.takeCmdVel false left right (s.note (.cmdVel vx wz true)))

theorem Host.onCmdVel_step (vx wz left right : Binary32.Bits) (s : Firmware) :
    CmdVelStep vx wz left right s (onCmdVel vx wz left right s) := by
  have hrefused : ∀ intent, onCmdVel vx wz left right s =
      refuseCmdVel intent (s.note (.cmdVel vx wz false)) →
      CmdVelStep vx wz left right s (onCmdVel vx wz left right s) :=
    fun intent h => h ▸ .refused intent
  by_cases hidle : s.status = .idle
  · have hi : (s.status == .idle) = true := by simpa using hidle
    cases hsafe : (Binary32.isFinite vx && Binary32.isFinite wz && isZero vx && isZero wz) with
    | false =>
      refine hrefused true ?_
      simp [onCmdVel, hi, applySafetyForMode, hsafe]
    | true =>
      have hsafe' := hsafe
      simp only [Bool.and_eq_true] at hsafe'
      by_cases hclear : s.emergencyState = 0#8
      · have heq : onCmdVel vx wz left right s = takeIdleZero { s.note (.cmdVel vx wz true) with
            authorization := { s.authorization with driveZeroEpoch := s.authorization.epoch } } := by
          simp [onCmdVel, hi, applySafetyForMode, hsafe, authorizationBoundaryActive, hclear,
            Authorization.acceptDrive]
        rw [heq]
        exact .idleZero hidle ⟨hsafe'.1.2, hsafe'.2⟩ hclear
      · refine hrefused true ?_
        simp [onCmdVel, hi, applySafetyForMode, hsafe, authorizationBoundaryActive, hclear,
          Authorization.acceptDrive, Firmware.note]
  · have hi : (s.status == .idle) = false := by simpa using hidle
    by_cases hfinite : Binary32.isFinite vx = true ∧ Binary32.isFinite wz = true
    · by_cases hclear : s.emergencyState = 0#8
      · by_cases hzero : isZero vx = true ∧ isZero wz = true
        · have heq : onCmdVel vx wz left right s = takeCmdVel true left right
              { s.note (.cmdVel vx wz true) with authorization :=
                { s.authorization with driveZeroEpoch := s.authorization.epoch } } := by
            simp [onCmdVel, hi, applySafetyForMode, applySafety, hfinite, hzero,
              authorizationBoundaryActive, hclear, Authorization.acceptDrive]
          rw [heq]
          exact .zero hidle hzero hclear
        · have hmotion : (isZero vx && isZero wz) = false := by simpa using hzero
          by_cases harmed : s.authorization.driveZeroEpoch = s.authorization.epoch
          · have heq : onCmdVel vx wz left right s =
                takeCmdVel false left right (s.note (.cmdVel vx wz true)) := by
              simp [onCmdVel, hi, applySafetyForMode, applySafety, hfinite, hmotion,
                authorizationBoundaryActive, hclear, Authorization.acceptDrive, harmed,
                Firmware.note]
            rw [heq]
            exact .motion hidle hzero hfinite hclear harmed
          · have hunarmed : (s.authorization.driveZeroEpoch == s.authorization.epoch) = false := by
              simpa using harmed
            refine hrefused true ?_
            simp [onCmdVel, hi, applySafetyForMode, applySafety, hfinite, hmotion,
              authorizationBoundaryActive, hclear, Authorization.acceptDrive, hunarmed,
              Firmware.note]
      · refine hrefused true ?_
        simp [onCmdVel, hi, applySafetyForMode, applySafety, hfinite, authorizationBoundaryActive,
          hclear, Authorization.acceptDrive, Firmware.note]
    · have hunsafe : (!Binary32.isFinite vx || !Binary32.isFinite wz) = true := by
        simp only [Bool.or_eq_true, Bool.not_eq_true']
        by_cases hx : Binary32.isFinite vx = true
        · exact .inr (by simpa [hx] using hfinite)
        · exact .inl (by simpa using hx)
      refine hrefused false ?_
      simp only [onCmdVel, applySafetyForMode, applySafety, hi, hunsafe, if_true,
        Bool.false_eq_true, if_false, Bool.not_false]

/-! ## The receive interrupts -/

/-- What a receive interrupt is made of: it inhibits, keeps its driver's books, and tells
    of a reply. The requests are left alone. -/
inductive Upkeep : Firmware → Firmware → Prop
  | refl {s} : Upkeep s s
  | inhibit {s s'} (h : Upkeep s s') : Upkeep s s'.forceInhibit
  | blade {s s'} (h : Upkeep s s') (f : Blade → Blade)
    (hon : (f s'.blade).onOff = s'.blade.onOff) (hepoch : (f s'.blade).onEpoch = s'.blade.onEpoch) :
    Upkeep s (s'.setBlade f)
  | drive {s s'} (h : Upkeep s s') (f : Drive → Drive) (hf : Drive.Kept s'.drive (f s'.drive))
    (hm : (f s'.drive).message = s'.drive.message) (hs : (f s'.drive).state = s'.drive.state) :
    Upkeep s (s'.setDrive f)
  | reply {s s'} (h : Upkeep s s') (valid activated : Bool) (error : Byte)
    (reportedSpeed : BitVec 16) : Upkeep s (s'.note (.bladeReply valid activated error reportedSpeed))

namespace Upkeep

variable {s a b : Firmware}

theorem ite {c : Prop} [Decidable c] (ha : Upkeep s a) (hb : Upkeep s b) :
    Upkeep s (if c then a else b) := by
  by_cases hc : c
  · rw [if_pos hc]; exact ha
  · rw [if_neg hc]; exact hb

theorem bladeFault (h : Upkeep s a) : Upkeep s (Blade.fault a) := (h.blade _ rfl rfl).inhibit

theorem driveFault (h : Upkeep s a) : Upkeep s (Drive.fault a) :=
  (h.drive _ ⟨rfl, rfl, rfl, rfl⟩ rfl rfl).inhibit

theorem acceptStatus (h : Upkeep s a) : Upkeep s (Blade.acceptStatus a) := by
  have hdecoded := h.blade (fun b => { b with feedback := Blade.decode b.received b.feedback }) rfl rfl
  have hseen := (hdecoded.bladeFault.ite (c := (a.setBlade fun b =>
    { b with feedback := Blade.decode b.received b.feedback }).blade.seenValid &&
      decide (Blade.FEEDBACK_MAX_AGE_MS < a.tick - (a.setBlade fun b =>
        { b with feedback := Blade.decode b.received b.feedback }).blade.lastValid)) hdecoded).blade
    (fun b => { b with seenValid := true, lastValid := a.tick, lastError := b.feedback.error != 0#8 })
    rfl rfl
  exact hseen.bladeFault.ite hseen

theorem receiveStatus {B : Board} (h : Upkeep s a) : Upkeep s (Blade.receiveStatus B a) := by
  have hinvalid := (h.blade (fun b => { b with feedback := { b.feedback with valid := false } })
    rfl rfl).bladeFault
  have hdecoded := h.acceptStatus.ite (c := Blade.statusValid B a.blade.received) hinvalid
  have htold : ∀ {x}, Upkeep s x → Upkeep s ((x.note (.bladeReply x.blade.feedback.valid
      x.blade.feedback.activated x.blade.feedback.error x.blade.feedback.reportedSpeed)).setBlade
        fun b => { b with feedback := Blade.arrived x.tick b.feedback }) :=
    fun hx => (hx.reply _ _ _ _).blade _ rfl rfl
  exact htold hdecoded

theorem receiveVersion (h : Upkeep s a) : Upkeep s (Blade.receiveVersion a) := by
  have hdone := h.blade (fun b => { b with
    versionRxArmed := false, versionResponseValid := Blade.versionValid a.blade.received
    versionResponseComplete := true }) rfl rfl
  exact hdone.ite hdone.bladeFault

theorem bladeReceiveIT {B : Board} : Upkeep s (Blade.receiveIT B s) := by
  have hread : Upkeep s (s.setBlade fun b => { b with rxArmed := false }) := .blade .refl _ rfl rfl
  exact hread.receiveVersion.ite (hread.ite hread.receiveStatus)

theorem driveReceiveIT : Upkeep s (Drive.receiveIT s) := by
  have hgap : Upkeep s (if s.drive.seenValid &&
      decide (Drive.FEEDBACK_TIMEOUT_MS < s.tick - s.drive.lastValid) then Drive.fault s else s) :=
    (driveFault .refl).ite .refl
  have hseen := hgap.drive (fun d => { d with
    seenValid := true, lastValid := s.tick, lastError := d.received.getD 12 0#8 != 0#8 })
    ⟨rfl, rfl, rfl, rfl⟩ rfl rfl
  exact (hseen.driveFault.ite hseen).ite (driveFault .refl)

end Upkeep

end

/-!
## The authorization epoch is the number of invalidations

The epoch starts at 1 and every `ActuatorAuthorization_Invalidate` moves it on, so it is
the token of the generation the log is in (`Epoched`), and a copy of it is worth what
`Granted` says. Until the epoch wraps, `2^32 - 1` invalidations after power-up, two
generations have two epochs, and none of them is 0.
-/

open Trace

def Mark.isBreak (m : Mark) : Bool := m.obs == .invalidated

/-- The epoch of a generation. -/
def epochToken : Nat → Epoch
  | 0 => 1#32
  | g + 1 => (Authorization.invalidate ⟨epochToken g, 0#32⟩).epoch

def epochBound : Nat := 2 ^ 32 - 1

theorem epochToken_eq {g : Nat} (h : g < epochBound) : epochToken g = BitVec.ofNat 32 (g + 1) := by
  unfold epochBound at h
  induction g with
  | zero => rfl
  | succ g ih =>
    have hg : epochToken g = BitVec.ofNat 32 (g + 1) := ih (by omega)
    have hadd : BitVec.ofNat 32 (g + 1) + 1#32 = BitVec.ofNat 32 (g + 2) := by
      rw [← BitVec.ofNat_add]
    have hne : BitVec.ofNat 32 (g + 2) ≠ 0#32 := by
      intro he
      have := congrArg BitVec.toNat he
      simp only [BitVec.toNat_ofNat] at this
      omega
    show (Authorization.invalidate ⟨epochToken g, 0#32⟩).epoch = _
    unfold Authorization.invalidate
    rw [hg, hadd, if_neg hne]

/-- The tokens of the generations. -/
def epochs : Tokens Epoch where
  token := epochToken
  bound := epochBound
  distinct := by
    intro g g' hg hg' he
    rw [epochToken_eq hg, epochToken_eq hg'] at he
    have := congrArg BitVec.toNat he
    unfold epochBound at hg hg'
    simp only [BitVec.toNat_ofNat] at this
    omega

theorem zero_no_token {g : Nat} (h : g < epochs.bound) : (0#32 : Epoch) ≠ epochs.token g := by
  have hg : g < 2 ^ 32 - 1 := h
  show (0#32 : Epoch) ≠ epochToken g
  rw [epochToken_eq h]
  intro he
  have := congrArg BitVec.toNat he
  simp only [BitVec.toNat_ofNat] at this
  omega

/-- The epoch has not wrapped in this log. -/
def NoWrap (log : List Mark) : Prop := generation Mark.isBreak log < epochBound

instance {log : List Mark} : Decidable (NoWrap log) := inferInstanceAs (Decidable (_ < _))

theorem NoWrap.tail {m : Mark} {log : List Mark} (h : NoWrap (m :: log)) : NoWrap log :=
  Nat.lt_of_le_of_lt generation_le_cons h

/-- What is said of every entry until the epoch wraps. -/
theorem NoWrap.always {p : Mark → List Mark → Prop} {log : List Mark} (h : NoWrap log)
    (ha : Always (fun m past => NoWrap past → p m past) log) : Always p log := by
  induction log with
  | nil => trivial
  | cons m past ih => exact ⟨ha.1 h.tail, ih h.tail ha.2⟩

/-- No entry of this kind in between, and no invalidation. -/
abbrev CalmBut (p : Mark → Prop) (m : Mark) : Prop := m.isBreak = false ∧ ¬p m

/-- `p` has happened in the generation the token `t` is of, if it is the current one. -/
abbrev Worth (p : Mark → Prop) (log : List Mark) (t : Epoch) : Prop :=
  Granted epochs Mark.isBreak (fun m _ => p m) log t

abbrev LatelyDid (p : Mark → Prop) (log : List Mark) : Prop :=
  Lately Mark.isBreak (fun m _ => p m) log

/-! ## The epoch along a run -/

/-- The epoch is the token of the generation. -/
def Epoched (s : Firmware) : Prop :=
  s.authorization.epoch = epochToken (generation Mark.isBreak s.log)

variable {s : Firmware}

theorem isBreak_of_ne {c : Core} {o : Obs} (h : o ≠ .invalidated) :
    (⟨c, o⟩ : Mark).isBreak = false := by
  simpa [Mark.isBreak] using h

theorem Epoched.note (h : Epoched s) {o : Obs} (ho : o ≠ .invalidated) : Epoched (s.note o) := by
  show s.authorization.epoch = epochToken (generation Mark.isBreak (_ :: s.log))
  rw [generation_cons_of_calm (isBreak_of_ne ho)]
  exact h

theorem Epoched.invalidate (h : Epoched s) : Epoched s.invalidate := by
  show s.authorization.invalidate.epoch = epochToken (generation Mark.isBreak (_ :: s.log))
  rw [generation_cons_of_break (by rfl)]
  show _ = (Authorization.invalidate ⟨epochToken _, 0#32⟩).epoch
  unfold Authorization.invalidate
  rw [h]

theorem Epoched.current {p : Mark → Prop} (h : Epoched s) (hp : LatelyDid p s.log) :
    Worth p s.log s.authorization.epoch := by
  rw [h]
  exact Granted.current (K := epochs) hp

theorem Epoched.lately {p : Mark → Prop} {t : Epoch} (h : Epoched s) (hw : NoWrap s.log)
    (ht : t = s.authorization.epoch) (hp : Worth p s.log t) : LatelyDid p s.log :=
  Granted.lately hp hw (ht.trans h)

end Actuation
end Mowgli
