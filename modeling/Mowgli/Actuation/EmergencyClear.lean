import Mowgli.Actuation.Steps

/-!
# EmergencyClear — who may clear a latched emergency

`emergency_state` is a byte of bits; an ordinary heartbeat may clear it only where the
heartbeat watchdog alone has set it. That provenance is a boolean of `cpp_main.cpp` beside
the byte, which outlives other clears, and bit 0 is shared with the host STOP. `Provenance`
says what the two are worth **together**: the boolean set and the byte equal to 1.

Everything but the heartbeat, its watchdog and the sensor polls is an `Aside`.
-/

namespace Mowgli
namespace Actuation

open Trace

/-! ## What is said of the log -/

def Mark.IsPlayPoll (m : Mark) : Prop :=
  ∃ now held latched clear, m.obs = .playPoll now held latched clear

/-- A poll that finds PLAY held over a latched emergency and clear inputs. -/
def Mark.PlayHeldAt (m : Mark) (now : Tick) : Prop := m.obs = .playPoll now true true true

/-- The polls since the one at `started` all found PLAY held. -/
def HeldSince (started : Tick) (log : List Mark) : Prop :=
  Since (fun m => m.IsPlayPoll → ∃ now, m.PlayHeldAt now) (fun m _ => m.PlayHeldAt started) log

/-- The last poll found PLAY held, and it has been for as long as a clear takes. -/
def HoldComplete (log : List Mark) : Prop :=
  Since (fun m => ¬m.IsPlayPoll) (fun m past => ∃ now started, m.PlayHeldAt now ∧
    HeldSince started past ∧ m.core.timers.playClearMs ≤ now - started) log

/-- The heartbeat watchdog raised the emergency from zero, and since then nothing but it has
    set a bit. -/
def WatchdogOnly (log : List Mark) : Prop :=
  Since
    (fun m => m.core.emergency ≠ 0#8 ∧ ∀ bits cause, m.obs = .latched bits cause →
      cause = .watchdog false)
    (fun m _ => m.core.emergency = 0#8 ∧ m.obs = .latched 1#8 (.watchdog false)) log

def ClearLaw (m : Mark) (past : List Mark) : Prop := m.obs = .cleared .playHold → HoldComplete past

/-! ## The invariant -/

structure PlayBooks (s : Firmware) : Prop where
  held : s.timers.playStarted ≠ 0#32 → HeldSince s.timers.playStarted s.log
  law : Always ClearLaw s.log

structure Provenance (s : Firmware) : Prop extends PlayBooks s where
  watchdog : s.host.heartbeatOnlyLatch = true → s.emergency = 1#8 → WatchdogOnly s.log

/-- An entry that tells of no bit that was set, of no clear and of no poll of PLAY. -/
def Mark.Aside (m : Mark) : Prop :=
  ¬m.IsPlayPoll ∧ (∀ bits cause, m.obs ≠ .latched bits cause) ∧ ∀ cause, m.obs ≠ .cleared cause

/-- Nothing was done to the emergency. -/
structure Aside (s s' : Firmware) : Prop where
  emergency : s'.emergency = s.emergency
  playStarted : s'.timers.playStarted = s.timers.playStarted
  latch : s'.host.heartbeatOnlyLatch = s.host.heartbeatOnlyLatch
  log : ∃ later, s'.log = later ++ s.log ∧ ∀ m ∈ later, m.Aside ∧ m.core.emergency = s.emergency

namespace Aside

variable {B : Board} {s s' s'' : Firmware}

theorem refl : Aside s s := ⟨rfl, rfl, rfl, [], rfl, by simp⟩

theorem trans (h : Aside s s') (h' : Aside s' s'') : Aside s s'' := by
  obtain ⟨later, hlog, hlater⟩ := h.log
  obtain ⟨later', hlog', hlater'⟩ := h'.log
  refine ⟨h'.emergency.trans h.emergency, h'.playStarted.trans h.playStarted,
    h'.latch.trans h.latch, later' ++ later, by rw [hlog', hlog, List.append_assoc], ?_⟩
  intro m hm
  rcases List.mem_append.1 hm with hm | hm
  · exact ⟨(hlater' m hm).1, (hlater' m hm).2.trans h.emergency⟩
  · exact hlater m hm

/-- The statics but the emergency are set. -/
theorem set (hlog : s'.log = s.log) (hemergency : s'.emergency = s.emergency)
    (htimers : s'.timers.playStarted = s.timers.playStarted)
    (hlatch : s'.host.heartbeatOnlyLatch = s.host.heartbeatOnlyLatch) : Aside s s' :=
  ⟨hemergency, htimers, hlatch, [], hlog, by simp⟩

theorem note {o : Obs} (ho : (⟨s.toCore, o⟩ : Mark).Aside) : Aside s (s.note o) := by
  refine ⟨rfl, rfl, rfl, [⟨s.toCore, o⟩], rfl, fun m hm => ?_⟩
  rw [List.mem_singleton.1 hm]
  exact ⟨ho, rfl⟩

theorem of_obs {m : Mark}
    (ho : (match m.obs with
      | .playPoll _ _ _ _ | .latched _ _ | .cleared _ => false
      | _ => true) = true) : m.Aside := by
  refine ⟨?_, ?_, ?_⟩
  · rintro ⟨_, _, _, _, h⟩
    rw [h] at ho
    simp at ho
  · intro _ _ h
    rw [h] at ho
    simp at ho
  · intro _ h
    rw [h] at ho
    simp at ho

theorem ite {c : Prop} [Decidable c] (h : Aside s s') (h' : Aside s s'') :
    Aside s (if c then s' else s'') := by
  by_cases hc : c
  · rw [if_pos hc]; exact h
  · rw [if_neg hc]; exact h'

theorem invalidate : Aside s s.invalidate :=
  (note (o := .invalidated) (of_obs rfl)).trans (.set rfl rfl rfl rfl)

theorem forceInhibit : Aside s s.forceInhibit :=
  .ite .refl (invalidate.trans (.set rfl rfl rfl rfl))

/-! ### The drivers -/

theorem prepareMsg : Aside s (Blade.prepareMsg B s) := by
  obtain ⟨s₁, hs₁, hcase⟩ := Blade.prepareMsg_cases B s
  have h₁ : Aside s s₁ := by
    rcases hs₁ with rfl | rfl
    · exact .refl
    · exact .forceInhibit
  rcases hcase with ⟨f, hf, _⟩ | ⟨_, hf⟩
  · rw [hf]; exact h₁.trans (.set rfl rfl rfl rfl)
  · rw [hf]; exact h₁.trans (.set rfl rfl rfl rfl)

theorem bladeStep (h : BladeStep B s s') : Aside s s' := by
  cases h with
  | rest => exact .refl
  | inhibit => exact .forceInhibit
  | update f hf => exact .set rfl rfl rfl rfl
  | drop => exact .set rfl rfl rfl rfl
  | handOver transmitted =>
    have hn := (prepareMsg (B := B) (s := s)).trans
      (note (o := .bladeFrame (Blade.prepareMsg B s).blade.command transmitted) (of_obs rfl))
    exact .ite (hn.trans (.set rfl rfl rfl rfl)) hn

theorem driveStep (h : DriveStep s s') : Aside s s' := by
  cases h with
  | rest => exact .refl
  | inhibit => exact .forceInhibit
  | update f hf => exact .set rfl rfl rfl rfl
  | read => exact .note (of_obs rfl)
  | reverse => exact .note (of_obs rfl)
  | frame => exact .note (of_obs rfl)
  | handOver abandon =>
    have hset : Aside s (if Drive.stopped s.toCore = true then s.setDrive fun d => { d with
        message := (Drive.request 0#8 0#8 false false).gated true
        state := if abandon then .run else d.state } else s) :=
      .ite (.set rfl rfl rfl rfl) .refl
    exact hset.trans (.note (of_obs rfl))

theorem upkeep (h : Upkeep s s') : Aside s s' := by
  induction h with
  | refl => exact .refl
  | inhibit _ ih => exact ih.trans .forceInhibit
  | blade _ f hon hepoch ih => exact ih.trans (.set rfl rfl rfl rfl)
  | drive _ f hf hm hs ih => exact ih.trans (.set rfl rfl rfl rfl)
  | reply _ valid activated error reportedSpeed ih => exact ih.trans (.note (of_obs rfl))

/-! ### The motor loop -/

theorem host {f : Host → Host} (h : (f s.host).heartbeatOnlyLatch = s.host.heartbeatOnlyLatch) :
    Aside s (s.setHost f) := .set rfl rfl rfl h

theorem output {snap : Motors.Snapshot} {current stop : Bool} {leftPwm rightPwm : BitVec 16} :
    Aside s (Motors.output snap current stop leftPwm rightPwm s) := by
  have hrefuse : Aside s (Motors.refuseOutput s.authorization.epoch s) :=
    forceInhibit.trans (.host rfl)
  have hspeed : ∀ {s₁ : Firmware} {left right : BitVec 16},
      Aside s₁ (Motors.requestSpeed left right snap.cmdVelEpoch s₁) :=
    (note (of_obs rfl)).trans (.set rfl rfl rfl rfl)
  have hblade : ∀ {s₁ : Firmware}, Aside s₁ (Motors.requestBlade snap.bladeEpoch s₁) := by
    intro s₁
    refine (note (o := .bladeRequest s₁.host.bladeOn) (of_obs rfl)).trans ?_
    exact trans (.set rfl rfl rfl rfl) (.ite (.set rfl rfl rfl rfl) (.set rfl rfl rfl rfl))
  unfold Motors.output
  dsimp only
  refine trans ?_ hblade
  refine trans ?_ (.ite hspeed hspeed)
  exact trans (.ite .refl hrefuse) (.ite (.host rfl) .refl)

/-- What the loop does between its snapshot and the heartbeat watchdog, and after it. -/
theorem motorStep {snap : Motors.Snapshot} (h : MotorStep snap s s') :
    Aside s s' ∨ s' = Motors.watchHeartbeat s := by
  cases h with
  | rest => exact .inl .refl
  | inhibit => exact .inl .forceInhibit
  | update f hf => exact .inl (.host hf.heartbeatOnlyLatch)
  | confirmRearm => exact .inl (.ite (.set rfl rfl rfl rfl) (trans (.host rfl) .forceInhibit))
  | dropRetained => exact .inl (.ite (.host rfl) .refl)
  | dropTargets => exact .inl (.ite (.set rfl rfl rfl rfl) .refl)
  | watchVelocity => exact .inl (.ite (.set rfl rfl rfl rfl) .refl)
  | dropBlade => exact .inl (.ite (.host rfl) .refl)
  | watchHeartbeat => exact .inr rfl
  | output current stop leftPwm rightPwm => exact .inl .output

/-! ### The packets -/

theorem beat {requested release : Bool} : Aside s (Host.beat requested release s) :=
  (note (o := .heartbeat requested release) (of_obs rfl)).trans (.host rfl)

theorem cmdVelStep {vx wz left right : Binary32.Bits} (h : CmdVelStep vx wz left right s s') :
    Aside s s' := by
  have hnote : ∀ accepted, Aside s (s.note (.cmdVel vx wz accepted)) := fun _ => .note (of_obs rfl)
  cases h with
  | refused intent => exact (hnote false).trans (.set rfl rfl rfl rfl)
  | idleZero hidle hzero hclear =>
    exact (hnote true).trans (.ite (.set rfl rfl rfl rfl) (.set rfl rfl rfl rfl))
  | zero hidle hzero hclear =>
    exact (hnote true).trans (.ite (.set rfl rfl rfl rfl) (.set rfl rfl rfl rfl))
  | motion hidle hzero hfinite hclear harmed => exact (hnote true).trans (.set rfl rfl rfl rfl)

theorem onHlState {mode : Byte} : Aside s (Host.onHlState mode s) := by
  have hidle : ∀ s₁ : Firmware, Aside s₁ (Host.atIdle s₁) := fun _ => .set rfl rfl rfl rfl
  refine (note (o := .hlState mode) (of_obs rfl)).trans (.ite ?_ (.set rfl rfl rfl rfl))
  exact trans (.ite .refl invalidate) (hidle _)

theorem onCmdBlade {on direction : Byte} : Aside s (Host.onCmdBlade on direction s) := by
  refine (note (o := .cmdBlade (on != 0#8) (Host.bladeDecision (on != 0#8) s.toCore).retainedRequest)
    (of_obs rfl)).trans ?_
  exact .ite (.set rfl rfl rfl rfl) (.set rfl rfl rfl rfl)

/-- **Every interrupt but the HEARTBEAT** leaves the emergency alone. -/
theorem irq {i : Irq} (hi : ∀ requested release, i ≠ .heartbeat requested release) :
    Aside s (Actuation.irq B i s) := by
  cases i with
  | tick n => exact .set rfl rfl rfl rfl
  | world w => exact .set rfl rfl rfl rfl
  | heartbeat requested release => exact absurd rfl (hi requested release)
  | cmdVel vx wz left right => exact .cmdVelStep (Host.onCmdVel_step vx wz left right s)
  | hlState mode => exact .onHlState
  | cmdBlade on direction => exact .onCmdBlade
  | driveDma bytes => exact .set rfl rfl rfl rfl
  | bladeDma bytes => exact .set rfl rfl rfl rfl
  | driveReceived => exact .upkeep .driveReceiveIT
  | bladeReceived => exact .upkeep .bladeReceiveIT

/-! ### What the rest is worth -/

theorem heldSince {started : Tick} (h : Aside s s') (hs : HeldSince started s.log) :
    HeldSince started s'.log := by
  obtain ⟨later, hlog, hlater⟩ := h.log
  rw [hlog]
  exact hs.later fun m hm hpoll => absurd hpoll (hlater m hm).1.1

theorem watchdogOnly (h : Aside s s') (hne : s.emergency ≠ 0#8) (hs : WatchdogOnly s.log) :
    WatchdogOnly s'.log := by
  obtain ⟨later, hlog, hlater⟩ := h.log
  rw [hlog]
  refine hs.later fun m hm => ⟨(hlater m hm).2 ▸ hne, fun bits cause he => ?_⟩
  exact absurd he ((hlater m hm).1.2.1 bits cause)

theorem clearLaw (h : Aside s s') (hs : Always ClearLaw s.log) : Always ClearLaw s'.log := by
  obtain ⟨later, hlog, hlater⟩ := h.log
  rw [hlog]
  exact hs.append fun m hm past _ he => absurd he ((hlater m hm).1.2.2 _)

theorem playBooks (h : Aside s s') (hs : PlayBooks s) : PlayBooks s' where
  held hne := by
    rw [h.playStarted] at hne ⊢
    exact h.heldSince (hs.held hne)
  law := h.clearLaw hs.law

theorem provenance (h : Aside s s') (hs : Provenance s) : Provenance s' where
  toPlayBooks := h.playBooks hs.toPlayBooks
  watchdog hlatch hone := by
    rw [h.latch] at hlatch
    rw [h.emergency] at hone
    exact h.watchdogOnly (by rw [hone]; decide) (hs.watchdog hlatch hone)

end Aside

/-! ## What is done to the emergency -/

/-- **The bits that are set**, in words: an `Aside`, the entry, the bits. -/
theorem Firmware.emergencySetBits_eq (s : Firmware) (bits : Byte) (cause : Latch) :
    ∃ s₁, Aside s s₁ ∧ (s.emergency = 0#8 → bits = 0#8 ∨ s₁ = s.invalidate) ∧
      s.emergencySetBits bits cause =
        { s₁.note (.latched bits cause) with emergency := s₁.emergency ||| bits } := by
  unfold Firmware.emergencySetBits
  by_cases hc : s.emergency = 0#8 ∧ bits ≠ 0#8
  · rw [if_pos hc]
    exact ⟨s.invalidate, .invalidate, fun _ => .inr rfl, rfl⟩
  · rw [if_neg hc]
    refine ⟨s, .refl, fun hz => .inl ?_, rfl⟩
    by_contra hb
    exact hc ⟨hz, hb⟩

theorem Firmware.emergencySetBits_ne (s : Firmware) {b : Byte} {c : Latch}
    (hne : s.emergency ≠ 0#8) : (s.emergencySetBits b c).emergency ≠ 0#8 := by
  obtain ⟨s₁, ha, _, heq⟩ := s.emergencySetBits_eq b c
  rw [heq]
  intro hzero
  have hor : s.emergency ||| b = 0#8 := ha.emergency ▸ hzero
  exact hne (BitVec.or_eq_zero_iff.1 hor).1

namespace PlayBooks

variable {s : Firmware} {bits : Byte}

theorem setBits {cause : Latch} (h : PlayBooks s) : PlayBooks (s.emergencySetBits bits cause) := by
  obtain ⟨s₁, ha, _, heq⟩ := s.emergencySetBits_eq bits cause
  have h₁ := ha.playBooks h
  rw [heq]
  refine { held := fun hne => .inr ⟨?_, h₁.held hne⟩, law := ⟨fun he => ?_, h₁.law⟩ }
  · rintro ⟨_, _, _, _, he⟩
    exact absurd he (by simp)
  · exact absurd he (by simp)

/-- A release clears the whole byte, or does nothing. -/
theorem release {cause : Clear} (h : PlayBooks s) (hc : cause = .playHold → HoldComplete s.log) :
    PlayBooks (s.emergencyRelease cause) := by
  unfold Firmware.emergencyRelease
  split
  · refine { held := fun hne => .inr ⟨?_, h.held hne⟩, law := ⟨fun he => ?_, h.law⟩ }
    · rintro ⟨_, _, _, _, he⟩
      exact absurd he (by simp)
    · exact hc (Obs.cleared.inj he)
  · exact h

/-- Without the boolean nothing is to be known of the byte. -/
theorem consume (h : PlayBooks s) :
    Provenance (s.setHost fun t => { t with heartbeatOnlyLatch := false }) :=
  { held := h.held, law := h.law
    watchdog := fun hlatch => absurd (show false = true from hlatch) (by simp) }

end PlayBooks

namespace Provenance

variable {B : Board} {s s' : Firmware} {bits : Byte}

/-- The other statics are set. -/
theorem set (h : Provenance s) (hlog : s'.log = s.log) (hemergency : s'.emergency = s.emergency)
    (htimers : s'.timers.playStarted = s.timers.playStarted)
    (hlatch : s'.host.heartbeatOnlyLatch = s.host.heartbeatOnlyLatch) : Provenance s' :=
  (Aside.set hlog hemergency htimers hlatch).provenance h

/-- A bit of a sensor is no bit of the watchdog. -/
theorem sensor (h : Provenance s) (hb : ∀ e : Byte, e ||| bits ≠ 1#8) :
    Provenance (s.emergencySetBits bits .sensor) where
  toPlayBooks := h.toPlayBooks.setBits
  watchdog _ hone := by
    obtain ⟨s₁, _, _, heq⟩ := s.emergencySetBits_eq bits .sensor
    rw [heq] at hone
    exact absurd hone (hb _)

theorem release {cause : Clear} (h : Provenance s) (hc : cause = .playHold → HoldComplete s.log) :
    Provenance (s.emergencyRelease cause) where
  toPlayBooks := h.toPlayBooks.release hc
  watchdog := by
    unfold Firmware.emergencyRelease
    split
    · exact fun _ hone => absurd (show (0#8 : Byte) = 1#8 from hone) (by decide)
    · exact h.watchdog

/-! ### The heartbeat -/

theorem onHeartbeat (h : Provenance s) {requested release : Bool} :
    Provenance (Host.onHeartbeat requested release s) := by
  have h₁ : Provenance (Host.beat requested release s) := Aside.beat.provenance h
  show Provenance (Host.decided (Host.heartbeatDecision requested release
    (Host.beat requested release s).toCore) (Host.beat requested release s))
  generalize Host.beat requested release s = s₁ at h₁
  cases hd : Host.heartbeatDecision requested release s₁.toCore with
  | mk action consume =>
    unfold Host.decided
    cases action with
    | assert =>
      -- A stop always takes the boolean back.
      have hc : consume = true := by
        revert hd
        unfold Host.heartbeatDecision decideHeartbeatEmergency
        cases requested
        · simp
          split_ifs <;> simp
        · simp
      rw [if_pos hc]
      exact h₁.toPlayBooks.setBits.consume
    | release =>
      have h₂ : Provenance (Host.applyHeartbeat .release s₁) := h₁.release (by simp)
      split
      · exact h₂.toPlayBooks.consume
      · exact h₂
    | autoClearWatchdog =>
      have h₂ : Provenance (Host.applyHeartbeat .autoClearWatchdog s₁) := h₁.release (by simp)
      split
      · exact h₂.toPlayBooks.consume
      · exact h₂
    | unchanged =>
      split
      · exact h₁.toPlayBooks.consume
      · exact h₁

/-- A bit of the watchdog, over a boolean that is right about the byte before it. -/
theorem watchdogBit {cause : Latch} (h : PlayBooks s)
    (hbool : s.host.heartbeatOnlyLatch = true → s.emergency = 0#8 ∨ s.emergency = 1#8 →
      cause = .watchdog false ∧ (s.emergency = 1#8 → WatchdogOnly s.log)) :
    Provenance (s.emergencySetBits 1#8 cause) where
  toPlayBooks := h.setBits
  watchdog := by
    obtain ⟨s₁, ha, _, heq⟩ := s.emergencySetBits_eq 1#8 cause
    rw [heq]
    intro hlatch hone
    have hlatch₁ : s.host.heartbeatOnlyLatch = true := ha.latch ▸ hlatch
    have hone₁ : s.emergency ||| 1#8 = 1#8 := ha.emergency ▸ hone
    have hbyte : s.emergency = 0#8 ∨ s.emergency = 1#8 := by
      generalize s.emergency = e at hone₁
      revert e
      decide
    obtain ⟨rfl, honly⟩ := hbool hlatch₁ hbyte
    rcases hbyte with hzero | hone₂
    · exact .inl ⟨ha.emergency.trans hzero, rfl⟩
    · have hne : s.emergency ≠ 0#8 := by rw [hone₂]; decide
      refine .inr ⟨⟨ha.emergency ▸ hne, fun bits cause he => ?_⟩, ha.watchdogOnly hne (honly hone₂)⟩
      exact (Obs.latched.inj he).2.symm

theorem watchHeartbeat (h : Provenance s) : Provenance (Motors.watchHeartbeat s) := by
  unfold Motors.watchHeartbeat
  dsimp only
  split
  · have hrest : ∀ {s₁ : Firmware}, Provenance s₁ → Provenance (s₁.setHost fun t => { t with
        targetBlade := false, targetBladeEpoch := s₁.authorization.epoch, bladeOn := false }) :=
      fun h₁ => (Aside.host rfl).provenance h₁
    refine hrest (watchdogBit { held := h.held, law := h.law } ?_)
    intro hlatch hbyte
    cases hp : s.world.anyPhysicalEmergency with
    | true =>
      simp [Firmware.setHost, hp] at hlatch
    | false =>
      refine ⟨rfl, fun hone => ?_⟩
      have hone' : s.emergency = 1#8 := hone
      refine h.watchdog ?_ hone'
      have hne : s.emergencyState ≠ 0#8 := by
        unfold Core.emergencyState
        rw [hone']
        split <;> decide
      simpa [Firmware.setHost, hp, hne] using hlatch
  · exact h

theorem motorStep (h : Provenance s) {snap : Motors.Snapshot}
    (hs : MotorStep snap s s') : Provenance s' := by
  rcases Aside.motorStep hs with ha | rfl
  · exact ha.provenance h
  · exact h.watchHeartbeat

theorem emergencyStep (h : Provenance s) (hs : EmergencyStep s s') :
    Provenance s' := by
  cases hs with
  | rest => exact h
  | timers f hf => exact h.set rfl rfl hf rfl
  | setBits bits hb => exact h.sensor hb

theorem irq (h : Provenance s) (i : Irq) : Provenance (Actuation.irq B i s) := by
  by_cases hi : ∃ requested release, i = .heartbeat requested release
  · obtain ⟨requested, release, rfl⟩ := hi
    exact h.onHeartbeat
  · exact (Aside.irq fun requested release he => hi ⟨requested, release, he⟩).provenance h

theorem powerUp {now : Nat} {w : World} : Provenance (.powerUp B now w) where
  held hne := absurd rfl hne
  law := trivial
  watchdog hlatch _ := absurd (show false = true from hlatch) (by simp)

end Provenance

/-! ## The poll of PLAY -/

/-- What was written between two statements: no poll, whatever else. -/
def Unpolled (s s' : Firmware) : Prop :=
  ∃ later, s'.log = later ++ s.log ∧ ∀ m ∈ later, ¬m.IsPlayPoll

namespace Unpolled

variable {B : Board} {s s' s'' : Firmware}

theorem refl : Unpolled s s := ⟨[], rfl, by simp⟩

theorem trans (h : Unpolled s s') (h' : Unpolled s' s'') : Unpolled s s'' := by
  obtain ⟨later, hlog, hlater⟩ := h
  obtain ⟨later', hlog', hlater'⟩ := h'
  refine ⟨later' ++ later, by rw [hlog', hlog, List.append_assoc], fun m hm => ?_⟩
  rcases List.mem_append.1 hm with hm | hm
  · exact hlater' m hm
  · exact hlater m hm

theorem of_aside (h : Aside s s') : Unpolled s s' := by
  obtain ⟨later, hlog, hlater⟩ := h.log
  exact ⟨later, hlog, fun m hm => (hlater m hm).1.1⟩

theorem holdComplete (h : Unpolled s s') (hs : HoldComplete s.log) : HoldComplete s'.log := by
  obtain ⟨later, hlog, hlater⟩ := h
  rw [hlog]
  exact hs.later hlater

theorem entry {m : Mark} (hlog : s'.log = m :: s.log) (hm : ¬m.IsPlayPoll) : Unpolled s s' :=
  ⟨[m], hlog, by simpa using hm⟩

theorem setBits {bits : Byte} {cause : Latch} : Unpolled s (s.emergencySetBits bits cause) := by
  obtain ⟨s₁, ha, _, heq⟩ := s.emergencySetBits_eq bits cause
  rw [heq]
  refine (of_aside ha).trans (entry (m := ⟨s₁.toCore, .latched bits cause⟩) rfl ?_)
  simp [Mark.IsPlayPoll]

theorem release {cause : Clear} : Unpolled s (s.emergencyRelease cause) := by
  unfold Firmware.emergencyRelease
  split
  · exact entry (m := ⟨s.toCore, .cleared cause⟩) rfl (by simp [Mark.IsPlayPoll])
  · exact refl

theorem decided {decision : HeartbeatEmergencyAction × Bool} :
    Unpolled s (Host.decided decision s) := by
  have happly : Unpolled s (Host.applyHeartbeat decision.1 s) := by
    cases decision.1 with
    | unchanged => exact refl
    | assert => exact setBits
    | release => exact release
    | autoClearWatchdog => exact release
  refine happly.trans ?_
  unfold Host.decided
  dsimp only
  split
  · exact ⟨[], rfl, by simp⟩
  · exact refl

theorem irq {i : Irq} : Unpolled s (Actuation.irq B i s) := by
  by_cases hi : ∃ requested release, i = .heartbeat requested release
  · obtain ⟨requested, releaseRequested, rfl⟩ := hi
    exact (of_aside .beat).trans decided
  · exact of_aside (.irq fun requested release he => hi ⟨requested, release, he⟩)

end Unpolled

def playGuard : Guard Answer Firmware where
  inv := Provenance
  rely := Unpolled
  answers _ := True
  refl _ := .refl
  trans := .trans

theorem preserves_triple {m : Task Unit} (h : Machine.Preserves Provenance m) :
    playGuard.Triple (fun _ => True) m (fun _ _ => True) :=
  .does h (fun _ _ _ _ _ => trivial) fun _ _ hi _ hs => ⟨hs hi, trivial⟩

theorem emergency_triple {α : Type} {m : Task α} (h : m.Does EmergencyStep) :
    playGuard.Triple (fun _ => True) m (fun _ _ => True) :=
  .does h (fun _ _ _ _ _ => trivial) fun _ _ hi _ hs => ⟨Provenance.emergencyStep hi hs, trivial⟩

namespace Emergency

theorem playStep_triple {now : Tick} {play : Bool} {inputs : EmergencyPhysicalInputs} :
    playGuard.Triple (fun _ => True) (playStep now play inputs)
      (fun held s => held = true → HoldComplete s.log) := by
  refine .call (fun _ _ _ _ _ => trivial) fun _ s _ hi _ => ?_
  have h : Provenance s := hi
  have hwatchdog : s.host.heartbeatOnlyLatch = true → s.emergency = 1#8 → ∀ o : Obs,
      (∀ bits cause, o ≠ .latched bits cause) → WatchdogOnly (⟨s.toCore, o⟩ :: s.log) := by
    intro hlatch hone o ho
    refine .inr ⟨⟨?_, fun bits cause he => absurd he (ho bits cause)⟩, h.watchdog hlatch hone⟩
    show s.emergency ≠ 0#8
    rw [hone]
    decide
  have hlaw : ∀ o : Obs, (∀ cause, o ≠ .cleared cause) → Always ClearLaw (⟨s.toCore, o⟩ :: s.log) :=
    fun o ho => ⟨fun he => absurd he (ho _), h.law⟩
  cases hheld : (play && (s.emergency != 0#8) && inputs.clear) with
  | false =>
    -- The hold is broken off.
    have hr : playClearHoldStep now s.timers.playClearMs play (s.emergency != 0#8) inputs
        s.timers.playStarted = (false, 0#32) := by
      unfold playClearHoldStep
      rw [if_pos]
      rw [← Bool.not_and, ← Bool.not_and, hheld]
      rfl
    simp only [hr]
    refine ⟨{ held := fun hne => absurd rfl hne, law := hlaw _ (by simp)
              watchdog := fun hlatch hone => hwatchdog hlatch hone _ (by simp) }, by simp⟩
  | true =>
    simp only [Bool.and_eq_true] at hheld
    obtain ⟨⟨rfl, hlatched⟩, hclear⟩ := hheld
    have hmark : (⟨s.toCore, .playPoll now true (s.emergency != 0#8) inputs.clear⟩ : Mark).PlayHeldAt
        now := by
      show Obs.playPoll _ _ _ _ = _
      rw [hlatched, hclear]
    by_cases hzero : s.timers.playStarted = 0#32
    · -- The hold begins.
      have hr : playClearHoldStep now s.timers.playClearMs true (s.emergency != 0#8) inputs
          s.timers.playStarted = (false, now) := by
        simp [playClearHoldStep, hlatched, hclear, hzero]
      simp only [hr]
      exact ⟨{ held := fun _ => .inl hmark, law := hlaw _ (by simp)
               watchdog := fun hlatch hone => hwatchdog hlatch hone _ (by simp) }, by simp⟩
    · have hr : playClearHoldStep now s.timers.playClearMs true (s.emergency != 0#8) inputs
          s.timers.playStarted =
            (decide (s.timers.playClearMs ≤ now - s.timers.playStarted), s.timers.playStarted) := by
        simp [playClearHoldStep, hlatched, hclear, hzero]
      simp only [hr]
      refine ⟨{ held := fun _ => .inr ⟨fun _ => ⟨now, hmark⟩, h.held hzero⟩, law := hlaw _ (by simp)
                watchdog := fun hlatch hone => hwatchdog hlatch hone _ (by simp) }, fun hlong => ?_⟩
      exact .inl ⟨now, s.timers.playStarted, hmark, h.held hzero, of_decide_eq_true hlong⟩

theorem pollPlay_triple {now : Tick} {play : Bool} {inputs : EmergencyPhysicalInputs} :
    playGuard.Triple (fun _ => True) (pollPlay now play inputs) (fun _ _ => True) := by
  refine playStep_triple.bind fun held => .ite (fun hheld => ?_) fun _ => .ret fun _ _ _ => trivial
  have hclear : playGuard.Triple (fun s => held = true → HoldComplete s.log)
      (.modify (·.emergencyRelease .playHold)) (fun _ _ => True) :=
    .modify (fun _ _ hs hr _ ht => Unpolled.holdComplete hr (hs ht)) fun s hi hs =>
      ⟨Provenance.release hi fun _ => hs hheld, trivial⟩
  refine hclear.bind fun _ => .modify (fun _ _ _ _ _ => trivial) fun s hi _ => ⟨?_, trivial⟩
  have h : Provenance s := hi
  exact { held := fun hne => absurd rfl hne, law := h.law, watchdog := h.watchdog }

theorem emergencyController_triple :
    playGuard.Triple (fun _ => True) emergencyController (fun _ _ => True) := by
  have hget : ∀ {α : Type} {r : Firmware → α},
      playGuard.Triple (fun _ => True) (.get r) (fun _ _ => True) :=
    fun {_ _} => emergency_triple (.get fun _ => .rest)
  refine hget.bind fun yellow => hget.bind fun white => hget.bind fun blue => ?_
  refine hget.bind fun red => hget.bind fun tilt => hget.bind fun play => ?_
  refine hget.bind fun accelerometer => hget.bind fun now => ?_
  refine (emergency_triple does_pollStop).bind fun _ => ?_
  refine (emergency_triple does_pollWheels).bind fun _ => ?_
  exact (emergency_triple does_pollTilt).bind fun _ => pollPlay_triple

end Emergency

/-! ## Runs -/

theorem motorsHandler_preserves : Machine.Preserves Provenance Motors.motorsHandler :=
  .bind (.call fun _ _ h => (Aside.note (Aside.of_obs rfl)).provenance h) fun _ =>
    Motors.does_cycle.mono fun _ _ hs h => h.motorStep hs

theorem sensorFault_preserves : Machine.Preserves Provenance Emergency.onboardSensorFault :=
  .bind (.modify fun _ h => h.set rfl rfl rfl rfl) fun _ =>
    .modify fun _ h => h.sensor (by decide)

theorem machine_keeps (B : Board) : (machine B).Keeps playGuard (fun _ => True) where
  stable _ _ _ _ _ := trivial
  irq i _ h := ⟨Provenance.irq h i, .irq⟩
  body r := by
    cases r with
    | motorsHandler => exact preserves_triple motorsHandler_preserves
    | driveApp =>
      exact preserves_triple (Drive.does_app10ms.mono fun _ _ hs h => (Aside.driveStep hs).provenance h)
    | bladeApp =>
      exact preserves_triple (Blade.does_app.mono fun _ _ hs h => (Aside.bladeStep hs).provenance h)
    | emergencyController => exact Emergency.emergencyController_triple
    | onboardSensorFault => exact preserves_triple sensorFault_preserves
    | setTimeouts oneWheelLift bothWheelsLift tilt stopButton playClear =>
      exact preserves_triple (.modify fun _ h => h.set rfl rfl rfl rfl)
  cut k := k.elim
  boot k := k.elim

theorem provenance_run (B : Board) (now : Nat) (w : World) (es : List FirmwareEvent) :
    Provenance ((machine B).run (start B now w) es).st :=
  ((machine_keeps B).run (c := start B now w) ⟨Provenance.powerUp, trivial⟩ fun e _ => by cases e <;> trivial).1

/-! ## The clear of a latch -/

/-- A statement that clears the latch is the clear of a PLAY hold. -/
def ClearsByPlay (s s' : Firmware) : Prop :=
  s.emergency ≠ 0#8 → s'.emergency = 0#8 →
    s'.log = ⟨s.toCore, .cleared .playHold⟩ :: s.log ∧ s.world.physicalInputs.clear = true ∧
      s.world.onboardHealthy = true

namespace ClearsByPlay

variable {B : Board} {s s' : Firmware}

theorem of_aside (h : Aside s s') : ClearsByPlay s s' :=
  fun hne hzero => absurd (h.emergency.symm.trans hzero) hne

theorem of_bits {bits : Byte} {cause : Latch} : ClearsByPlay s (s.emergencySetBits bits cause) :=
  fun hne hzero => absurd hzero (s.emergencySetBits_ne hne)

theorem of_play : ClearsByPlay s (s.emergencyRelease .playHold) := by
  intro hne hzero
  unfold Firmware.emergencyRelease at hzero ⊢
  split at hzero
  · rename_i hc
    rw [if_pos hc]
    simp only [Bool.and_eq_true] at hc
    exact ⟨rfl, hc.1.2, hc.1.1⟩
  · exact absurd hzero hne

theorem motorStep {snap : Motors.Snapshot} (h : MotorStep snap s s') : ClearsByPlay s s' := by
  rcases Aside.motorStep h with ha | rfl
  · exact of_aside ha
  · unfold Motors.watchHeartbeat
    dsimp only
    split
    · refine fun hne hzero => absurd hzero (Firmware.emergencySetBits_ne (b := 1#8)
        (c := .watchdog s.world.anyPhysicalEmergency) _ hne)
    · exact of_aside .refl

theorem emergencyStep (h : EmergencyStep s s') : ClearsByPlay s s' := by
  cases h with
  | rest => exact of_aside .refl
  | timers f hf => exact of_aside (.set rfl rfl hf rfl)
  | setBits bits hb => exact of_bits

theorem does_pollPlay {now : Tick} {play : Bool} {inputs : EmergencyPhysicalInputs} :
    (Emergency.pollPlay now play inputs).Does ClearsByPlay := by
  refine .bind (.call fun _ s hne hzero => absurd hzero hne) fun held => .ite ?_ .ret
  refine .bind ?_ fun _ => ?_
  · exact Routine.Does.modify fun s => of_play
  · exact Routine.Does.modify fun s hne hzero => absurd hzero hne

theorem does_emergencyController : Emergency.emergencyController.Does ClearsByPlay := by
  have hget : ∀ {α : Type} {r : Firmware → α}, (Routine.get r : Task α).Does ClearsByPlay :=
    fun {_ _} => .get fun _ => of_aside .refl
  refine .bind hget fun yellow => .bind hget fun white => .bind hget fun blue => ?_
  refine .bind hget fun red => .bind hget fun tilt => .bind hget fun play => ?_
  refine .bind hget fun accelerometer => .bind hget fun now => ?_
  refine .bind (Emergency.does_pollStop.mono fun _ _ => emergencyStep) fun _ => ?_
  refine .bind (Emergency.does_pollWheels.mono fun _ _ => emergencyStep) fun _ => ?_
  exact .bind (Emergency.does_pollTilt.mono fun _ _ => emergencyStep) fun _ => does_pollPlay

theorem does_body (r : Call) : (callBody B r).Does ClearsByPlay := by
  cases r with
  | motorsHandler =>
    exact .bind (.call fun _ _ => of_aside (.note (Aside.of_obs rfl))) fun _ =>
      Motors.does_cycle.mono fun _ _ => motorStep
  | driveApp => exact Drive.does_app10ms.mono fun _ _ h => of_aside (.driveStep h)
  | bladeApp => exact Blade.does_app.mono fun _ _ h => of_aside (.bladeStep h)
  | emergencyController => exact does_emergencyController
  | onboardSensorFault =>
    exact .bind (.modify fun _ => of_aside (.set rfl rfl rfl rfl)) fun _ => .modify fun _ => of_bits
  | setTimeouts oneWheelLift bothWheelsLift tilt stopButton playClear =>
    exact .modify fun _ => of_aside (.set rfl rfl rfl rfl)

end ClearsByPlay

theorem emergencyRelease_clears {s : Firmware} {cause : Clear} (hne : s.emergency ≠ 0#8)
    (hzero : (s.emergencyRelease cause).emergency = 0#8) :
    s.world.physicalInputs.clear = true ∧ s.world.onboardHealthy = true := by
  unfold Firmware.emergencyRelease at hzero
  split at hzero
  · rename_i hc
    simp only [Bool.and_eq_true] at hc
    exact ⟨hc.1.2, hc.1.1⟩
  · exact absurd hzero hne

/-- A heartbeat that clears the latch asks for no stop. It asks for the release, or it finds
    the boolean of the watchdog set over a byte of 1. -/
theorem onHeartbeat_clears {s : Firmware} {requested release : Bool} (hne : s.emergency ≠ 0#8)
    (hzero : (Host.onHeartbeat requested release s).emergency = 0#8) :
    s.world.physicalInputs.clear = true ∧ s.world.onboardHealthy = true ∧ requested = false ∧
      (release = true ∨ s.host.heartbeatOnlyLatch = true ∧ s.emergency = 1#8) := by
  have ha : Aside s (Host.beat requested release s) := .beat
  have hworld : (Host.beat requested release s).world = s.world := rfl
  have happly : (Host.applyHeartbeat (Host.heartbeatDecision requested release
      (Host.beat requested release s).toCore).1 (Host.beat requested release s)).emergency = 0#8 := by
    unfold Host.onHeartbeat Host.decided at hzero
    dsimp only at hzero
    split at hzero
    · exact hzero
    · exact hzero
  have hne₁ : (Host.beat requested release s).emergency ≠ 0#8 := ha.emergency ▸ hne
  unfold Host.heartbeatDecision decideHeartbeatEmergency at happly
  cases requested with
  | true => exact absurd happly (Firmware.emergencySetBits_ne _ hne₁)
  | false =>
    cases hw : ((Host.beat false release s).host.heartbeatOnlyLatch &&
        (Host.beat false release s).emergencyState == 1#8) with
    | true =>
      simp only [hw, Bool.false_eq_true, if_false, if_true] at happly
      split at happly
      · exact absurd happly hne₁
      · obtain ⟨hclear, hhealthy⟩ := emergencyRelease_clears hne₁ happly
        simp only [Bool.and_eq_true, beq_iff_eq] at hw
        have hone : s.emergency = 1#8 := by
          have hstate := hw.2
          unfold Core.emergencyState at hstate
          rw [hhealthy, if_pos rfl, BitVec.or_zero] at hstate
          exact hstate
        exact ⟨hclear, hhealthy, rfl, .inr ⟨hw.1, hone⟩⟩
    | false =>
      simp only [hw, Bool.false_eq_true, if_false] at happly
      split at happly
      · rename_i hc
        obtain ⟨hclear, hhealthy⟩ := emergencyRelease_clears hne₁ happly
        simp only [Bool.and_eq_true] at hc
        exact ⟨hclear, hhealthy, rfl, .inl hc.1⟩
      · exact absurd happly hne₁

/-- Whatever event takes the latch back to zero. -/
theorem emergency_cleared (B : Board) (now : Nat) (w : World) (es : List FirmwareEvent)
    (e : FirmwareEvent) (hset : ((machine B).run (start B now w) es).st.emergency ≠ 0#8)
    (hzero : ((machine B).next ((machine B).run (start B now w) es) e).st.emergency = 0#8) :
    ((machine B).run (start B now w) es).st.world.physicalInputs.clear = true ∧
      ((machine B).run (start B now w) es).st.world.onboardHealthy = true ∧
      ((∃ answer, e = .step answer) ∧ HoldComplete ((machine B).run (start B now w) es).st.log ∨
        e = .irq (.heartbeat false true) ∨
        (∃ release, e = .irq (.heartbeat false release)) ∧
          WatchdogOnly ((machine B).run (start B now w) es).st.log) := by
  have hprov := provenance_run B now w es
  have hfg : ((machine B).run (start B now w) es).fg.Does ClearsByPlay :=
    Machine.does_run ClearsByPlay.does_body (fun k => k.elim) Routine.Does.ret es
  have hnext := provenance_run B now w (es ++ [e])
  rw [show (machine B).run (start B now w) (es ++ [e]) =
    (machine B).next ((machine B).run (start B now w) es) e from List.foldl_append ..] at hnext
  generalize (machine B).run (start B now w) es = c at *
  obtain ⟨s, fg⟩ := c
  cases e with
  | cut k => exact k.elim
  | start r =>
    cases fg with
    | ret a => exact absurd hzero hset
    | act f k => exact absurd hzero hset
  | step answer =>
    cases fg with
    | ret a => exact absurd hzero hset
    | act f k =>
      obtain ⟨hlog, hclear, hhealthy⟩ := (hfg answer s).1 hset hzero
      have hlaw : Always ClearLaw (f answer s).log := hnext.law
      rw [hlog] at hlaw
      exact ⟨hclear, hhealthy, .inl ⟨⟨answer, rfl⟩, hlaw.1 rfl⟩⟩
  | irq i =>
    by_cases hi : ∃ requested release, i = .heartbeat requested release
    · obtain ⟨requested, release, rfl⟩ := hi
      obtain ⟨hclear, hhealthy, rfl, hcase⟩ := onHeartbeat_clears hset hzero
      refine ⟨hclear, hhealthy, .inr ?_⟩
      rcases hcase with rfl | ⟨hlatch, hone⟩
      · exact .inl rfl
      · exact .inr ⟨⟨release, rfl⟩, hprov.watchdog hlatch hone⟩
    · have ha : Aside s (Actuation.irq B i s) := .irq fun requested release he =>
        hi ⟨requested, release, he⟩
      exact absurd (ha.emergency.symm.trans hzero) hset

/-- The heartbeats stop for three seconds. -/
def Session.silence : List FirmwareEvent :=
  [.irq (.heartbeat false false), .irq (.tick 3000)] ++ pass .motorsHandler 25 true

theorem emergency_cleared_silence :
    ((machine .yardforce500).run (start .yardforce500 1000 Session.calm)
        Session.silence).st.world.physicalInputs.clear = true ∧
      ((machine .yardforce500).run (start .yardforce500 1000 Session.calm)
        Session.silence).st.world.onboardHealthy = true ∧
      ((∃ answer, (.irq (.heartbeat false false) : FirmwareEvent) = .step answer) ∧
          HoldComplete ((machine .yardforce500).run (start .yardforce500 1000 Session.calm)
            Session.silence).st.log ∨
        (.irq (.heartbeat false false) : FirmwareEvent) = .irq (.heartbeat false true) ∨
        (∃ release, (.irq (.heartbeat false false) : FirmwareEvent) =
            .irq (.heartbeat false release)) ∧
          WatchdogOnly ((machine .yardforce500).run (start .yardforce500 1000 Session.calm)
            Session.silence).st.log) :=
  emergency_cleared .yardforce500 1000 Session.calm Session.silence (.irq (.heartbeat false false))
    (by decide +kernel) (by decide +kernel)

end Actuation
end Mowgli
