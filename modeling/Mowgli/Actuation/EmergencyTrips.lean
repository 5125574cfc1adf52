import Mowgli.Actuation.Loop

/-!
# EmergencyTrips — an input that lasts is latched

A timer of `EmergencyController` holds the tick its input came in at, and 0 when the input is
not there. A poll at tick 0 therefore leaves it idle, and the next poll starts it instead.
-/

namespace Mowgli
namespace Actuation
namespace Emergency

/-! ## One timer over a row of polls -/

/-- A timer, polled with its clock, its limit and its input. -/
structure Timer where
  now : Nat → Nat
  limit : Nat → Tick
  active : Nat → Bool
  started : Nat → Tick
  next : ∀ n, started (n + 1) =
    (timed (BitVec.ofNat 32 (now n)) (limit n) (active n) (started n)).2

namespace Timer

def tick (t : Timer) (n : Nat) : Tick := BitVec.ofNat 32 (t.now n)

def fires (t : Timer) (n : Nat) : Bool :=
  (timed (t.tick n) (t.limit n) (t.active n) (t.started n)).1

variable {t : Timer} {n : Nat}

theorem next_idle (h : t.active n = false) : t.started (n + 1) = 0#32 := by
  rw [t.next, h]
  rfl

theorem next_start (h : t.active n = true) (hs : t.started n = 0#32) :
    t.started (n + 1) = t.tick n := by
  rw [t.next, h, hs]
  rfl

theorem next_keep (h : t.active n = true) (hs : t.started n ≠ 0#32) :
    t.started (n + 1) = t.started n := by
  rw [t.next, h]
  unfold timed
  rw [if_neg (by simp), if_neg hs]

theorem fires_iff :
    t.fires n = true ↔
      t.active n = true ∧ t.started n ≠ 0#32 ∧ t.limit n ≤ t.tick n - t.started n := by
  unfold fires timed
  cases t.active n with
  | false => simp
  | true =>
    by_cases hs : t.started n = 0#32
    · simp [hs]
    · simp [hs]

/-- A difference of ticks, while no whole turn of the clock has passed. -/
theorem tick_sub {a b : Nat} (hle : a ≤ b) (hlt : b < a + 4294967296) :
    (BitVec.ofNat 32 b - BitVec.ofNat 32 a).toNat = b - a := by
  simp only [BitVec.toNat_sub, BitVec.toNat_ofNat]
  omega

/-- **An input that was there when its timer ran out has lasted.** -/
theorem held_of_fires (h0 : t.started 0 = 0#32) (hmono : ∀ n, t.now n ≤ t.now (n + 1))
    {j : Nat} (hfires : t.fires j = true) :
    ∃ a, a ≤ j ∧ (∀ k, a ≤ k → k ≤ j → t.active k = true) ∧
      t.now a + (t.limit j).toNat ≤ t.now j := by
  have hsince : ∀ n, t.started n ≠ 0#32 → ∃ a, a < n ∧ t.tick a = t.started n ∧
      ∀ k, a ≤ k → k < n → t.active k = true := by
    intro n
    induction n with
    | zero => exact fun h => absurd h0 h
    | succ n ih =>
      intro hs
      cases hactive : t.active n with
      | false => exact absurd (next_idle hactive) hs
      | true =>
        by_cases hidle : t.started n = 0#32
        · refine ⟨n, Nat.lt_succ_self n, (next_start hactive hidle).symm, ?_⟩
          intro k hk hlt
          rwa [show k = n by omega]
        · obtain ⟨a, ha, htick, hlast⟩ := ih hidle
          refine ⟨a, by omega, htick.trans (next_keep hactive hidle).symm, ?_⟩
          intro k hk hlt
          by_cases hkn : k = n
          · rwa [hkn]
          · exact hlast k hk (by omega)
  have hclock : ∀ a b, a ≤ b → t.now a ≤ t.now b := by
    intro a b hab
    induction b, hab using Nat.le_induction with
    | base => exact Nat.le_refl _
    | succ b hab ih => exact Nat.le_trans ih (hmono b)
  obtain ⟨hactive, hs, hlimit⟩ := fires_iff.1 hfires
  obtain ⟨a, ha, htick, hlast⟩ := hsince j hs
  refine ⟨a, Nat.le_of_lt ha, ?_, ?_⟩
  · intro k hk hle
    by_cases hkj : k = j
    · rwa [hkj]
    · exact hlast k hk (by omega)
  · -- The clock may have turned since, which only makes the wait longer.
    have hle := hclock a j (Nat.le_of_lt ha)
    have hdiff : (t.tick j - t.tick a).toNat ≤ t.now j - t.now a := by
      unfold tick
      simp only [BitVec.toNat_sub, BitVec.toNat_ofNat]
      omega
    rw [← htick] at hlimit
    have : (t.limit j).toNat ≤ (t.tick j - t.tick a).toNat := hlimit
    omega

/-- A running timer keeps its start while the input lasts. -/
theorem started_kept {a j : Nat} (hactive : ∀ k, a ≤ k → k ≤ j → t.active k = true)
    (hs : t.started a ≠ 0#32) : ∀ b, a ≤ b → b ≤ j → t.started b = t.started a := by
  intro b hab
  induction b, hab using Nat.le_induction with
  | base => exact fun _ => rfl
  | succ b hab ih =>
    intro hbj
    have hb := ih (by omega)
    rw [next_keep (hactive b hab (by omega)) (by rw [hb]; exact hs), hb]

/-- **An input that lasts is found**, at the second poll or at the last. -/
theorem fires_of_held {i j : Nat} (hij : i + 1 ≤ j)
    (hactive : ∀ k, i ≤ k → k ≤ j → t.active k = true)
    (hlimits : ∀ k, (t.limit k).toNat < 1073741824) (hpos : 0 < (t.limit j).toNat)
    (hlast : t.now (i + 1) + (t.limit j).toNat ≤ t.now j)
    (hwindow : t.now j < t.now (i + 1) + 2147483648)
    (hzero : ¬(t.tick i = 0#32 ∧ t.tick (i + 1) = 0#32)) :
    ∃ k, i ≤ k ∧ k ≤ j ∧ t.fires k = true := by
  have hrest : ∀ k, i + 1 ≤ k → k ≤ j → t.active k = true :=
    fun k hk hkj => hactive k (by omega) hkj
  by_cases hrunning : t.started (i + 1) = 0#32
  · -- Poll `i` was at tick 0, so the next one starts the timer.
    have htick : t.tick i = 0#32 := by
      by_cases hs : t.started i = 0#32
      · rw [← next_start (hactive i (Nat.le_refl i) (by omega)) hs]
        exact hrunning
      · rw [next_keep (hactive i (Nat.le_refl i) (by omega)) hs] at hrunning
        exact absurd hrunning hs
    have hnext : t.tick (i + 1) ≠ 0#32 := fun h => hzero ⟨htick, h⟩
    have hsecond : t.started (i + 2) = t.tick (i + 1) :=
      next_start (hrest (i + 1) (Nat.le_refl _) hij) hrunning
    have hj : i + 2 ≤ j := by
      by_contra hlt
      rw [show j = i + 1 by omega] at hlast hpos
      omega
    have hstarted : t.started j = t.tick (i + 1) := by
      rw [← hsecond]
      exact started_kept (fun k hk hkj => hrest k (by omega) hkj) (by rw [hsecond]; exact hnext)
        j hj (Nat.le_refl j)
    refine ⟨j, by omega, Nat.le_refl j, fires_iff.2 ⟨hrest j hij (Nat.le_refl j), ?_, ?_⟩⟩
    · rw [hstarted]
      exact hnext
    · rw [hstarted, BitVec.le_def]
      unfold tick
      rw [tick_sub (by omega) (by omega)]
      omega
  · have hstarted := started_kept hrest hrunning j hij (Nat.le_refl j)
    by_cases hsecond : t.limit (i + 1) ≤ t.tick (i + 1) - t.started (i + 1)
    · exact ⟨i + 1, by omega, hij, fires_iff.2 ⟨hrest (i + 1) (Nat.le_refl _) hij, hrunning, hsecond⟩⟩
    · refine ⟨j, by omega, Nat.le_refl j, fires_iff.2 ⟨hrest j hij (Nat.le_refl j), ?_, ?_⟩⟩
      · rw [hstarted]
        exact hrunning
      · -- Less than the limit had passed at the second poll, so the clock has no time to turn.
        have hlimit := hlimits (i + 1)
        rw [hstarted]
        generalize t.started (i + 1) = s at hsecond
        have hs := s.isLt
        unfold tick at hsecond ⊢
        rw [BitVec.le_def, Nat.not_le] at hsecond
        rw [BitVec.le_def]
        simp only [BitVec.toNat_sub, BitVec.toNat_ofNat] at hsecond ⊢
        omega

end Timer

/-! ## The inputs -/

inductive Input where
  | stopYellow
  | stopWhite
  | bothLifts
  | blueLift
  | redLift
  | accelerometer
  | tilt
deriving DecidableEq

namespace Input

def asserted : Input → World → Bool
  | stopYellow, w => w.stopYellow
  | stopWhite, w => w.stopWhite
  | bothLifts, w => w.wheelLiftBlue && w.wheelLiftRed
  | blueLift, w => w.wheelLiftBlue
  | redLift, w => w.wheelLiftRed
  | accelerometer, w => w.lowZ
  | tilt, w => w.mechanicalTilt

def bits : Input → Byte
  | stopYellow => 0b00010#8
  | stopWhite => 0b00100#8
  | bothLifts => 0b11000#8
  | blueLift => 0b01000#8
  | redLift => 0b10000#8
  | accelerometer => 0b100000#8
  | tilt => 0b100000#8

def limit : Input → EmergencyTimers → Tick
  | stopYellow, t => t.stopButtonMs
  | stopWhite, t => t.stopButtonMs
  | bothLifts, t => t.bothWheelsLiftMs
  | blueLift, t => t.oneWheelLiftMs
  | redLift, t => t.oneWheelLiftMs
  | accelerometer, t => t.tiltMs
  | tilt, t => t.tiltMs

def started : Input → EmergencyTimers → Tick
  | stopYellow, t => t.stopStarted
  | stopWhite, t => t.stopStarted
  | bothLifts, t => t.bothWheelsLiftStarted
  | blueLift, t => t.blueWheelLiftStarted
  | redLift, t => t.redWheelLiftStarted
  | accelerometer, t => t.accelerometerStarted
  | tilt, t => t.tiltStarted

/-- What keeps the timer going: the stop buttons share one. -/
def active : Input → World → Bool
  | stopYellow, w => w.stopYellow || w.stopWhite
  | stopWhite, w => w.stopYellow || w.stopWhite
  | input, w => input.asserted w

def timed (input : Input) (s : Firmware) : Bool × Tick :=
  Emergency.timed s.tick (input.limit s.timers) (input.active s.world) (input.started s.timers)

def trips (input : Input) (s : Firmware) : Bool := (input.timed s).1 && input.asserted s.world

def all : List Input :=
  [stopYellow, stopWhite, bothLifts, blueLift, redLift, accelerometer, tilt]

theorem mem_all (input : Input) : input ∈ all := by
  cases input <;> decide

theorem active_of_asserted {input : Input} {w : World} (h : input.asserted w = true) :
    input.active w = true := by
  cases input with
  | stopYellow => exact Bool.or_eq_true_iff.2 (.inl h)
  | stopWhite => exact Bool.or_eq_true_iff.2 (.inr h)
  | _ => exact h

theorem not_clear {input : Input} {w : World} (h : input.asserted w = true) :
    w.physicalInputs.clear = false := by
  cases input with
  | bothLifts =>
    have hb := (Bool.and_eq_true_iff.1 h).1
    simp [World.physicalInputs, EmergencyPhysicalInputs.clear, hb]
  | _ =>
    simp only [asserted] at h
    simp [World.physicalInputs, EmergencyPhysicalInputs.clear, h]

end Input

/-- Only an input that is there runs out. -/
theorem timed_and (now limit : Tick) (active : Bool) (started : Tick) :
    ((timed now limit active started).1 && active) = (timed now limit active started).1 := by
  cases active with
  | true => exact Bool.and_true _
  | false => rfl

/-! ## One poll -/

/-- The bits a poll sets. -/
def tripped (s : Firmware) : List Input → Byte
  | [] => 0#8
  | input :: inputs => (if input.trips s then input.bits else 0#8) ||| tripped s inputs

/-- Bits are added, and nothing but a start of a timer changes beside. -/
structure Sets (bits : Byte) (s s' : Firmware) : Prop where
  now : s'.now = s.now
  world : s'.world = s.world
  emergency : s'.emergency = s.emergency ||| bits

variable {s : Firmware} {input : Input}

theorem Sets.trans {b c : Byte} {s' s'' : Firmware} (h : Sets b s s') (h' : Sets c s' s'') :
    Sets (b ||| c) s s'' := by
  refine ⟨h'.now.trans h.now, h'.world.trans h.world, ?_⟩
  rw [h'.emergency, h.emergency, BitVec.or_assoc]

theorem Sets.refl (s : Firmware) : Sets 0#8 s s := ⟨rfl, rfl, BitVec.or_zero.symm⟩

variable (w : Answer)

theorem sets_setBits (bits : Byte) (s : Firmware) :
    Sets bits s ((setBits bits).eval w s).2 ∧ ((setBits bits).eval w s).2.timers = s.timers := by
  show Sets bits s (s.emergencySetBits bits .sensor) ∧ (s.emergencySetBits bits .sensor).timers = _
  unfold Firmware.emergencySetBits
  split
  · exact ⟨⟨rfl, rfl, rfl⟩, rfl⟩
  · exact ⟨⟨rfl, rfl, rfl⟩, rfl⟩

theorem sets_whenever (c : Bool) (bits : Byte) (s : Firmware) :
    Sets (if c then bits else 0#8) s ((Routine.whenever c (setBits bits)).eval w s).2 ∧
      ((Routine.whenever c (setBits bits)).eval w s).2.timers = s.timers := by
  rw [Routine.eval_whenever]
  cases c with
  | true => exact sets_setBits w bits s
  | false => exact ⟨Sets.refl s, rfl⟩

/-- One input, its timer and its bits. -/
theorem sets_trip (active : Bool) (now : Tick) (limit started : EmergencyTimers → Tick)
    (start : Tick → EmergencyTimers → EmergencyTimers) (bits : Byte) (s : Firmware) :
    let r := timed now (limit s.timers) active (started s.timers)
    let s' := ((trip active now limit started start >>= fun fired =>
      Routine.whenever fired (setBits bits)).eval w s).2
    Sets (if r.1 then bits else 0#8) s s' ∧ s'.timers = start r.2 s.timers := by
  intro r s'
  have h := sets_whenever w r.1 bits (s.setTimers (start r.2))
  exact ⟨⟨h.1.now, h.1.world, h.1.emergency⟩, h.2⟩

theorem sets_pollStop (yellow white : Bool) (now : Tick) (s : Firmware) :
    let r := timed now s.timers.stopButtonMs (yellow || white) s.timers.stopStarted
    let s' := ((pollStop yellow white now).eval w s).2
    Sets ((if r.1 && yellow then 0b00010#8 else 0#8) |||
        if r.1 && white then 0b00100#8 else 0#8) s s' ∧
      s'.timers = { s.timers with stopStarted := r.2 } := by
  intro r s'
  have hs' : s' = ((if r.1 then Routine.whenever yellow (setBits 0b00010#8) >>= fun _ =>
      Routine.whenever white (setBits 0b00100#8) else pure ()).eval w
        (s.setTimers fun t => { t with stopStarted := r.2 })).2 := rfl
  generalize hfired : r.1 = fired at hs'
  cases fired with
  | false =>
    rw [hs']
    refine ⟨⟨rfl, rfl, ?_⟩, rfl⟩
    show s.emergency = s.emergency ||| (0#8 ||| 0#8)
    rw [BitVec.or_zero, BitVec.or_zero]
  | true =>
    rw [if_pos rfl, Routine.eval_bind] at hs'
    have hy := sets_whenever w yellow 0b00010#8 (s.setTimers fun t => { t with stopStarted := r.2 })
    have hw := sets_whenever w white 0b00100#8 ((Routine.whenever yellow (setBits 0b00010#8)).eval w
      (s.setTimers fun t => { t with stopStarted := r.2 })).2
    have h := hy.1.trans hw.1
    rw [hs']
    exact ⟨⟨h.now, h.world, h.emergency⟩, hw.2.trans hy.2⟩

theorem sets_pollWheels (blue red : Bool) (now : Tick) (s : Firmware) :
    let both := timed now s.timers.bothWheelsLiftMs (blue && red) s.timers.bothWheelsLiftStarted
    let b := timed now s.timers.oneWheelLiftMs blue s.timers.blueWheelLiftStarted
    let r := timed now s.timers.oneWheelLiftMs red s.timers.redWheelLiftStarted
    let s' := ((pollWheels blue red now).eval w s).2
    Sets ((if both.1 then 0b11000#8 else 0#8) ||| ((if b.1 then 0b01000#8 else 0#8) |||
        if r.1 then 0b10000#8 else 0#8)) s s' ∧
      s'.timers =
        { s.timers with
          bothWheelsLiftStarted := both.2
          blueWheelLiftStarted := b.2
          redWheelLiftStarted := r.2 } := by
  intro both b r s'
  have h1 := sets_trip w (blue && red) now (·.bothWheelsLiftMs) (·.bothWheelsLiftStarted)
    (fun since t => { t with bothWheelsLiftStarted := since }) 0b11000#8 s
  dsimp only at h1
  generalize hs1 : ((trip (blue && red) now (·.bothWheelsLiftMs) (·.bothWheelsLiftStarted)
    (fun since t => { t with bothWheelsLiftStarted := since }) >>= fun fired =>
      Routine.whenever fired (setBits 0b11000#8)).eval w s).2 = s1 at h1
  have h2 := sets_trip w blue now (·.oneWheelLiftMs) (·.blueWheelLiftStarted)
    (fun since t => { t with blueWheelLiftStarted := since }) 0b01000#8 s1
  dsimp only at h2
  generalize hs2 : ((trip blue now (·.oneWheelLiftMs) (·.blueWheelLiftStarted)
    (fun since t => { t with blueWheelLiftStarted := since }) >>= fun fired =>
      Routine.whenever fired (setBits 0b01000#8)).eval w s1).2 = s2 at h2
  have h3 := sets_trip w red now (·.oneWheelLiftMs) (·.redWheelLiftStarted)
    (fun since t => { t with redWheelLiftStarted := since }) 0b10000#8 s2
  have hs' : s' = ((trip red now (·.oneWheelLiftMs) (·.redWheelLiftStarted)
      (fun since t => { t with redWheelLiftStarted := since }) >>= fun fired =>
        Routine.whenever fired (setBits 0b10000#8)).eval w s2).2 := by
    rw [← hs2, ← hs1]
    simp only [s', pollWheels, Routine.eval_bind]
  rw [← hs'] at h3
  rw [h2.2, h1.2] at h3
  rw [h1.2] at h2
  exact ⟨h1.1.trans (h2.1.trans h3.1), h3.2⟩

theorem sets_pollTilt (accelerometer tilt : Bool) (now : Tick) (s : Firmware) :
    let a := timed now s.timers.tiltMs accelerometer s.timers.accelerometerStarted
    let t := timed now s.timers.tiltMs tilt s.timers.tiltStarted
    let s' := ((pollTilt accelerometer tilt now).eval w s).2
    Sets ((if a.1 then 0b100000#8 else 0#8) ||| if t.1 then 0b100000#8 else 0#8) s s' ∧
      s'.timers = { s.timers with accelerometerStarted := a.2, tiltStarted := t.2 } := by
  intro a t s'
  have h1 := sets_trip w accelerometer now (·.tiltMs) (·.accelerometerStarted)
    (fun since t => { t with accelerometerStarted := since }) 0b100000#8 s
  dsimp only at h1
  generalize hs1 : ((trip accelerometer now (·.tiltMs) (·.accelerometerStarted)
    (fun since t => { t with accelerometerStarted := since }) >>= fun fired =>
      Routine.whenever fired (setBits 0b100000#8)).eval w s).2 = s1 at h1
  have h2 := sets_trip w tilt now (·.tiltMs) (·.tiltStarted)
    (fun since t => { t with tiltStarted := since }) 0b100000#8 s1
  have hs' : s' = ((trip tilt now (·.tiltMs) (·.tiltStarted)
      (fun since t => { t with tiltStarted := since }) >>= fun fired =>
        Routine.whenever fired (setBits 0b100000#8)).eval w s1).2 := by
    rw [← hs1]
    simp only [s', pollTilt, Routine.eval_bind]
  rw [← hs'] at h2
  rw [h1.2] at h2
  exact ⟨h1.1.trans h2.1, h2.2⟩

/-- PLAY keeps the bits, or all inputs it was read with are clear. -/
theorem pollPlay_eval (now : Tick) (play : Bool) (inputs : EmergencyPhysicalInputs) (s : Firmware) :
    let s' := ((pollPlay now play inputs).eval w s).2
    (∀ input : Input, input.started s'.timers = input.started s.timers) ∧
      (s'.emergency = s.emergency ∨ inputs.clear = true ∧ s'.emergency = 0#8) := by
  intro s'
  have hs' : s' = ((if (playClearHoldStep now s.timers.playClearMs play (s.emergency != 0#8)
      inputs s.timers.playStarted).1 then
        Routine.modify (·.emergencyRelease .playHold) >>= fun _ =>
          Routine.modify fun s => s.setTimers fun t => { t with playStarted := 0#32 }
      else pure ()).eval w (((playStep now play inputs).eval w s).2)).2 := rfl
  have hstarted : ∀ (f : EmergencyTimers → Tick) (input : Input) (t : EmergencyTimers),
      input.started { t with playStarted := f t } = input.started t := by
    intro f input t
    cases input <;> rfl
  by_cases hheld : (playClearHoldStep now s.timers.playClearMs play (s.emergency != 0#8)
      inputs s.timers.playStarted).1 = true
  · have hclear : inputs.clear = true := by
      unfold playClearHoldStep at hheld
      by_contra hc
      rw [Bool.not_eq_true] at hc
      rw [hc, Bool.not_false, Bool.or_true, if_pos rfl] at hheld
      cases hheld
    rw [if_pos hheld] at hs'
    have hrelease : s' = (Firmware.emergencyRelease .playHold
        ((playStep now play inputs).eval w s).2).setTimers
          fun t => { t with playStarted := 0#32 } := hs'
    rw [hrelease]
    unfold Firmware.emergencyRelease
    split
    · exact ⟨fun input => by cases input <;> rfl, .inr ⟨hclear, rfl⟩⟩
    · exact ⟨fun input => by cases input <;> rfl, .inl rfl⟩
  · rw [if_neg hheld] at hs'
    rw [hs']
    exact ⟨fun input => by cases input <;> rfl, .inl rfl⟩

/-- The bits of a poll, as the controller goes through its inputs. -/
theorem tripped_all (s : Firmware) :
    tripped s Input.all =
      ((if (Input.stopYellow.timed s).1 && s.world.stopYellow then 0b00010#8 else 0#8) |||
        if (Input.stopWhite.timed s).1 && s.world.stopWhite then 0b00100#8 else 0#8) |||
      (((if (Input.bothLifts.timed s).1 then 0b11000#8 else 0#8) |||
        ((if (Input.blueLift.timed s).1 then 0b01000#8 else 0#8) |||
          if (Input.redLift.timed s).1 then 0b10000#8 else 0#8)) |||
      ((if (Input.accelerometer.timed s).1 then 0b100000#8 else 0#8) |||
        if (Input.tilt.timed s).1 then 0b100000#8 else 0#8)) := by
  simp only [tripped, Input.all, Input.trips, Input.timed, Input.active, Input.asserted,
    Input.bits, timed_and, BitVec.or_zero, BitVec.or_assoc]
  rfl

/-- **One poll**: every timer is stepped once and its bits are set, and only a poll that finds
all inputs clear can clear them. -/
theorem controller_eval (s : Firmware) : let s' := (emergencyController.eval w s).2
    (∀ input : Input, input.started s'.timers = (input.timed s).2) ∧
      (s'.emergency = s.emergency ||| tripped s Input.all ∨
        s.world.physicalInputs.clear = true ∧ s'.emergency = 0#8) := by
  intro s'
  have h1 := sets_pollStop w s.world.stopYellow s.world.stopWhite s.tick s
  dsimp only at h1
  generalize hs1 : ((pollStop s.world.stopYellow s.world.stopWhite s.tick).eval w s).2 = s1 at h1
  have h2 := sets_pollWheels w s.world.wheelLiftBlue s.world.wheelLiftRed s.tick s1
  dsimp only at h2
  generalize hs2 : ((pollWheels s.world.wheelLiftBlue s.world.wheelLiftRed s.tick).eval w s1).2 =
    s2 at h2
  have h3 := sets_pollTilt w s.world.lowZ s.world.mechanicalTilt s.tick s2
  dsimp only at h3
  generalize hs3 : ((pollTilt s.world.lowZ s.world.mechanicalTilt s.tick).eval w s2).2 = s3 at h3
  have hplay := pollPlay_eval w s.tick s.world.playButton s.world.physicalInputs s3
  have hs' : s' = ((pollPlay s.tick s.world.playButton s.world.physicalInputs).eval w s3).2 := by
    rw [← hs3, ← hs2, ← hs1]
    simp only [s', emergencyController, Routine.eval_bind, Routine.eval_get]
    rfl
  dsimp only at hplay
  rw [← hs'] at hplay
  rw [h2.2, h1.2] at h3
  rw [h1.2] at h2
  have hset := h1.1.trans (h2.1.trans h3.1)
  refine ⟨fun input => (hplay.1 input).trans ?_, ?_⟩
  · rw [h3.2]
    cases input <;> rfl
  · rcases hplay.2 with h | h
    · exact .inl (h.trans (hset.emergency.trans (congrArg (s.emergency ||| ·) (tripped_all s).symm)))
    · exact .inr h

/-! ## A row of polls -/

/-- What a poll of the main loop finds: the clock and the pins, timeouts somebody has asked for,
and bits somebody else has set. -/
structure Poll where
  now : Nat
  world : World
  oneWheelLift : Tick
  bothWheelsLift : Tick
  tilt : Tick
  stopButton : Tick
  playClear : Tick
  others : Byte

/-- Nothing in this routine asks the hardware. -/
def quiet : Answer := { yes := false, leftPwm := 0#16, rightPwm := 0#16 }

def Poll.found (p : Poll) (s : Firmware) : Firmware :=
  ((setTimeouts p.oneWheelLift p.bothWheelsLift p.tilt p.stopButton p.playClear).eval quiet
    { s with now := p.now, world := p.world, emergency := s.emergency ||| p.others }).2

def Poll.polled (p : Poll) (s : Firmware) : Firmware :=
  (emergencyController.eval quiet (p.found s)).2

/-- The firmware after the first `n` polls. -/
def after (s : Firmware) (polls : Nat → Poll) : Nat → Firmware
  | 0 => s
  | n + 1 => (polls n).polled (after s polls n)

/-- What poll `n` starts from. -/
def found (s : Firmware) (polls : Nat → Poll) (n : Nat) : Firmware :=
  (polls n).found (after s polls n)

section Polls

variable (s : Firmware) (polls : Nat → Poll)

theorem found_started (input : Input) (n : Nat) :
    input.started (found s polls n).timers = input.started (after s polls n).timers := by
  cases input <;> rfl

/-- The timer of an input, over the polls. -/
def timerOf (input : Input) : Timer where
  now n := (polls n).now
  limit n := input.limit (found s polls n).timers
  active n := input.active (polls n).world
  started n := input.started (after s polls n).timers
  next n := by
    have h := (controller_eval quiet (found s polls n)).1 input
    rw [← found_started s polls input n]
    exact h

theorem timerOf_fires (input : Input) (n : Nat) :
    (timerOf s polls input).fires n = (input.timed (found s polls n)).1 := by
  unfold Input.timed
  rw [found_started]
  rfl

theorem clampMs_bounds {v least most : Tick} (h : least ≤ most) :
    least ≤ clampMs v least most ∧ clampMs v least most ≤ most := by
  unfold clampMs
  split
  · exact ⟨BitVec.le_refl least, h⟩
  · split
    · exact ⟨h, BitVec.le_refl most⟩
    · rename_i h1 h2
      exact ⟨BitVec.not_lt.1 h1, BitVec.not_lt.1 h2⟩

/-- A timeout in its envelope. -/
theorem limit_bounds (input : Input) (n : Nat) :
    10 ≤ (input.limit (found s polls n).timers).toNat ∧
      (input.limit (found s polls n).timers).toNat ≤ 5000 := by
  have hclamp : ∀ (v most : Tick), 10#32 ≤ most → most ≤ 5000#32 →
      10 ≤ (clampMs v 10#32 most).toNat ∧ (clampMs v 10#32 most).toNat ≤ 5000 := by
    intro v most hlo hhi
    obtain ⟨h1, h2⟩ := clampMs_bounds (v := v) hlo
    exact ⟨h1, Nat.le_trans h2 hhi⟩
  cases input with
  | stopYellow => exact hclamp _ _ (by decide) (by decide)
  | stopWhite => exact hclamp _ _ (by decide) (by decide)
  | bothLifts => exact hclamp _ _ (by decide) (by decide)
  | blueLift => exact hclamp _ _ (by decide) (by decide)
  | redLift => exact hclamp _ _ (by decide) (by decide)
  | accelerometer => exact hclamp _ _ (by decide) (by decide)
  | tilt => exact hclamp _ _ (by decide) (by decide)

/-- What a poll leaves of the bits. -/
theorem after_emergency (n : Nat) :
    (after s polls (n + 1)).emergency =
        (after s polls n).emergency ||| (polls n).others ||| tripped (found s polls n) Input.all ∨
      (polls n).world.physicalInputs.clear = true ∧ (after s polls (n + 1)).emergency = 0#8 :=
  (controller_eval quiet (found s polls n)).2

end Polls

/-! ## Bits that are set -/

def Has (bits e : Byte) : Prop := e &&& bits = bits

theorem has_iff {bits e : Byte} :
    Has bits e ↔ ∀ i, bits.getLsbD i = true → e.getLsbD i = true := by
  constructor
  · intro h i hi
    have hbit : (e &&& bits).getLsbD i = bits.getLsbD i := by
      rw [show e &&& bits = bits from h]
    rw [BitVec.getLsbD_and, hi, Bool.and_true] at hbit
    exact hbit
  · intro h
    refine BitVec.eq_of_getLsbD_eq fun i _ => ?_
    rw [BitVec.getLsbD_and]
    cases hi : bits.getLsbD i with
    | false => rw [Bool.and_false]
    | true => rw [h i hi, Bool.and_true]

theorem Has.or_left {bits e : Byte} (h : Has bits e) (c : Byte) : Has bits (e ||| c) := by
  refine has_iff.2 fun i hi => ?_
  rw [BitVec.getLsbD_or, has_iff.1 h i hi, Bool.true_or]

theorem Has.or_right {bits e : Byte} (h : Has bits e) (c : Byte) : Has bits (c ||| e) := by
  refine has_iff.2 fun i hi => ?_
  rw [BitVec.getLsbD_or, has_iff.1 h i hi, Bool.or_true]

theorem has_tripped (h : input.trips s = true) {inputs : List Input} (hmem : input ∈ inputs) :
    Has input.bits (tripped s inputs) := by
  induction inputs with
  | nil => cases hmem
  | cons first inputs ih =>
    rw [tripped]
    rcases List.mem_cons.1 hmem with rfl | hmem
    · rw [if_pos h]
      exact Has.or_left BitVec.and_self _
    · exact (ih hmem).or_right _

/-- A bit that trips comes from an input that has it. -/
theorem tripped_bit {inputs : List Input} {i : Nat} (h : (tripped s inputs).getLsbD i = true) :
    ∃ input : Input, input.trips s = true ∧ input.bits.getLsbD i = true := by
  induction inputs with
  | nil =>
    rw [tripped, BitVec.getLsbD_zero] at h
    cases h
  | cons first inputs ih =>
    rw [tripped, BitVec.getLsbD_or, Bool.or_eq_true] at h
    rcases h with h | h
    · by_cases htrips : first.trips s = true
      · rw [if_pos htrips] at h
        exact ⟨first, htrips, h⟩
      · rw [if_neg htrips, BitVec.getLsbD_zero] at h
        cases h
    · exact ih h

/-! ## Every input that lasts -/

section Trips

variable {s : Firmware} {polls : Nat → Poll}

theorem has_kept {a j : Nat} (h : Has input.bits (after s polls a).emergency)
    (hasserted : ∀ k, a ≤ k → k < j → input.asserted (polls k).world = true) (haj : a ≤ j) :
    Has input.bits (after s polls j).emergency := by
  induction j, haj using Nat.le_induction with
  | base => exact h
  | succ j haj ih =>
    have hj := ih fun k hk hlt => hasserted k hk (by omega)
    rcases after_emergency s polls j with h | ⟨hclear, -⟩
    · rw [h]
      exact (hj.or_left _).or_left _
    · rw [Input.not_clear (hasserted j haj (Nat.lt_succ_self j))] at hclear
      cases hclear

/-- No clock goes back, and none is left alone for half a turn. -/
def Spaced (polls : Nat → Poll) : Prop :=
  ∀ n, (polls n).now ≤ (polls (n + 1)).now ∧ (polls (n + 1)).now < (polls n).now + 2147483648

/-- An input that was there for its timeout, counted from the second of the polls that found it. -/
structure Lasts (s : Firmware) (polls : Nat → Poll) (input : Input) (i j : Nat) : Prop where
  order : i + 1 ≤ j
  asserted : ∀ k, i ≤ k → k ≤ j → input.asserted (polls k).world = true
  timeout : (polls (i + 1)).now + (input.limit (found s polls j).timers).toNat ≤ (polls j).now
  window : (polls j).now < (polls (i + 1)).now + 2147483648

def tickOf (p : Poll) : Tick := BitVec.ofNat 32 p.now

theorem Lasts.trips {i j : Nat} (h : Lasts s polls input i j)
    (hzero : ¬(tickOf (polls i) = 0#32 ∧ tickOf (polls (i + 1)) = 0#32)) :
    Has input.bits (after s polls (j + 1)).emergency := by
  have hlimits : ∀ k, ((timerOf s polls input).limit k).toNat < 1073741824 := by
    intro k
    have := (limit_bounds s polls input k).2
    show (input.limit (found s polls k).timers).toNat < _
    omega
  have hpos : 0 < ((timerOf s polls input).limit j).toNat := by
    have := (limit_bounds s polls input j).1
    show 0 < (input.limit (found s polls j).timers).toNat
    omega
  obtain ⟨k, hik, hkj, hfires⟩ := Timer.fires_of_held h.order
    (fun k hk hkj => Input.active_of_asserted (h.asserted k hk hkj)) hlimits hpos h.timeout h.window
    hzero
  rw [timerOf_fires] at hfires
  have htrips : input.trips (found s polls k) = true := by
    unfold Input.trips
    rw [hfires]
    exact h.asserted k hik hkj
  have hset : Has input.bits (after s polls (k + 1)).emergency := by
    rcases after_emergency s polls k with hk | ⟨hclear, -⟩
    · rw [hk]
      exact (has_tripped htrips (Input.mem_all input)).or_right _
    · rw [Input.not_clear (h.asserted k hik hkj)] at hclear
      cases hclear
  exact has_kept hset (fun m hm hlt => h.asserted m (by omega) (by omega)) (by omega)

/-- Lifts, the tilt switch and the accelerometer have a timer of their own. -/
def Input.timedAlone : Input → Bool
  | stopYellow => false
  | stopWhite => false
  | _ => true

theorem lasted_of_set {i j : Nat} (hidle : ∀ input : Input, input.started s.timers = 0#32)
    (hmono : ∀ n, (polls n).now ≤ (polls (n + 1)).now) (hi : 3 ≤ i)
    (hbefore : (found s polls j).emergency.getLsbD i = false)
    (hafter : (after s polls (j + 1)).emergency.getLsbD i = true) :
    ∃ input : Input, input.timedAlone = true ∧ input.bits.getLsbD i = true ∧ ∃ a, a ≤ j ∧
      (∀ k, a ≤ k → k ≤ j → input.asserted (polls k).world = true) ∧
      (polls a).now + (input.limit (found s polls j).timers).toNat ≤ (polls j).now := by
  have htripped : (tripped (found s polls j) Input.all).getLsbD i = true := by
    rcases after_emergency s polls j with h | ⟨-, h⟩
    · rw [h, BitVec.getLsbD_or] at hafter
      have hnot : ((after s polls j).emergency ||| (polls j).others).getLsbD i = false := hbefore
      rwa [hnot, Bool.false_or] at hafter
    · rw [h, BitVec.getLsbD_zero] at hafter
      cases hafter
  obtain ⟨input, htrips, hbit⟩ := tripped_bit htripped
  have halone : input.timedAlone = true := by
    have hlt : i < 8 := by
      by_contra hge
      rw [BitVec.getLsbD_of_ge _ _ (Nat.not_lt.1 hge)] at hbit
      cases hbit
    have hstop : ∀ i, i < 8 → 3 ≤ i →
        (0b00010#8).getLsbD i = false ∧ (0b00100#8).getLsbD i = false := by
      decide
    cases input with
    | stopYellow => exact absurd hbit (by rw [Input.bits, (hstop i hlt hi).1]; decide)
    | stopWhite => exact absurd hbit (by rw [Input.bits, (hstop i hlt hi).2]; decide)
    | _ => rfl
  have hfires : (timerOf s polls input).fires j = true := by
    rw [timerOf_fires]
    exact (Bool.and_eq_true_iff.1 htrips).1
  obtain ⟨a, haj, hactive, hlasted⟩ := Timer.held_of_fires (hidle input) hmono hfires
  refine ⟨input, halone, hbit, a, haj, ?_, hlasted⟩
  intro k hk hkj
  have h := hactive k hk hkj
  cases input with
  | stopYellow => cases halone
  | stopWhite => cases halone
  | _ => exact h

end Trips

/-- **Every input that lasts is latched, and no lift or tilt that did not last**, on a clock that
wraps. -/
theorem emergency_trips {polls : Nat → Poll} (hspaced : Spaced polls) (B : Board) (now : Nat)
    (w : World) :
    (∀ (input : Input) (i j : Nat), Lasts (.powerUp B now w) polls input i j →
      ¬(tickOf (polls i) = 0#32 ∧ tickOf (polls (i + 1)) = 0#32) →
      Has input.bits (after (.powerUp B now w) polls (j + 1)).emergency) ∧
    ∀ i j : Nat, 3 ≤ i → (found (.powerUp B now w) polls j).emergency.getLsbD i = false →
      (after (.powerUp B now w) polls (j + 1)).emergency.getLsbD i = true →
      ∃ input : Input, input.timedAlone = true ∧ input.bits.getLsbD i = true ∧ ∃ a, a ≤ j ∧
        (∀ k, a ≤ k → k ≤ j → input.asserted (polls k).world = true) ∧
        (polls a).now + (input.limit (found (.powerUp B now w) polls j).timers).toNat ≤
          (polls j).now := by
  refine ⟨fun input i j hlasts hzero => hlasts.trips hzero, ?_⟩
  intro i j hi hbefore hafter
  exact lasted_of_set (fun input => by cases input <;> rfl) (fun n => (hspaced n).1) hi hbefore
    hafter

/-! ## A tilt over the wrap -/

def tilted : World :=
  { stopYellow := false, stopWhite := false, wheelLiftBlue := false, wheelLiftRed := false
    mechanicalTilt := true, playButton := false, onboardHealthy := true, onboardTilt := false }

def tiltAt (now : Nat) : Poll :=
  { now := now, world := tilted, oneWheelLift := 2000#32, bothWheelsLift := 1000#32
    tilt := 500#32, stopButton := 100#32, playClear := 2000#32, others := 0#8 }

/-- Tick 0 once, then 11 ms later, then the timeout. -/
def overZero : Nat → Poll
  | 0 => tiltAt 4294967296
  | 1 => tiltAt 4294967307
  | n + 2 => tiltAt (4294967807 + n)

theorem emergency_trips_overZero :
    Has Input.tilt.bits (after (.powerUp Board.yardforce500 1 tilted) overZero 3).emergency := by
  have hspaced : Spaced overZero := by
    intro n
    match n with
    | 0 => decide
    | 1 => decide
    | n + 2 =>
      show 4294967807 + n ≤ 4294967807 + (n + 1) ∧
        4294967807 + (n + 1) < 4294967807 + n + 2147483648
      omega
  refine (emergency_trips hspaced Board.yardforce500 1 tilted).1 .tilt 0 2 ?_ (by decide)
  refine ⟨by decide, ?_, by decide +kernel, by decide⟩
  intro k _ hk
  match k with
  | 0 => rfl
  | 1 => rfl
  | 2 => rfl

/-- Tick 0 twice, and then the timeout. -/
def zeroTwice : Nat → Poll
  | 0 => tiltAt 4294967296
  | 1 => tiltAt 4294967296
  | n + 2 => tiltAt (4294967796 + n)

/-- Two polls in one tick, and that tick 0: the timer starts with the third. -/
theorem zero_tick_twice_misses :
    ¬∀ polls : Nat → Poll, Spaced polls → ∀ (B : Board) (now : Nat) (w : World) (input : Input)
      (i j : Nat), Lasts (.powerUp B now w) polls input i j →
        Has input.bits (after (.powerUp B now w) polls (j + 1)).emergency := by
  intro h
  have hspaced : Spaced zeroTwice := by
    intro n
    match n with
    | 0 => decide
    | 1 => decide
    | n + 2 =>
      show 4294967796 + n ≤ 4294967796 + (n + 1) ∧
        4294967796 + (n + 1) < 4294967796 + n + 2147483648
      omega
  have hlasts : Lasts (.powerUp Board.yardforce500 1 tilted) zeroTwice .tilt 0 2 := by
    refine ⟨by decide, ?_, by decide +kernel, by decide⟩
    intro k _ hk
    match k with
    | 0 => rfl
    | 1 => rfl
    | 2 => rfl
  have hset := h zeroTwice hspaced Board.yardforce500 1 tilted .tilt 0 2 hlasts
  revert hset
  show ¬(_ &&& _ = _)
  decide +kernel

end Emergency
end Actuation
end Mowgli
