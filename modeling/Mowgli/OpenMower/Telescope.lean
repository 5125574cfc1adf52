import Mathlib.Tactic.FieldSimp
import Mathlib.Tactic.Linarith
import Mathlib.Tactic.Ring
import Mowgli.Lib.Trace
import Mowgli.OpenMower.XescOdometry

/-!
# Telescope — what the outputs add up to

Between two primings the sampled deltas add up to the difference of the counters, and the reader of
`WheelTick` finds that sum again. **The odometry misses the first sample after a priming**, which
only primes it; the rest is in the windows and in the one that is open (`Accounts`).
-/

namespace Mowgli
namespace OpenMower
namespace Xesc

open Trace

variable {K : Type} [Field K] [LinearOrder K]

/-! ## The log, the newest entry first -/

structure Entry (K : Type) [Field K] where
  tick : Tick K
  before : Node K
  out : Out K

def log (p : Params K) : List (Tick K) → List (Entry K)
  | [] => []
  | tick :: past =>
    { tick
      before := nodeAfter p past
      out := (control_tick p (nodeAfter p past) tick).1 } :: log p past

namespace Entry

variable (e : Entry K)

/-- The sampler takes a baseline. -/
def primes : Bool := e.out.step.kind = .kPrimed ∨ e.out.step.kind = .kReset

def samples : Bool := e.out.step.kind = .kSample

def delta (w : Wheel) : Int := e.out.step.deltas w

end Entry

/-- The reading that the last sample or priming took. -/
def lastReading : List (Entry K) → Option (Reading K)
  | [] => none
  | e :: past => if e.primes || e.samples then some e.tick.reading else lastReading past

def primingReading : List (Entry K) → Option (Reading K)
  | [] => none
  | e :: past => if e.primes then some e.tick.reading else primingReading past

/-- A sum over the entries since the last priming. -/
def sumSince {M : Type} [AddMonoid M] (f : Entry K → List (Entry K) → M) : List (Entry K) → M
  | [] => 0
  | e :: past => if e.primes then 0 else sumSince f past + f e past

def sampledSince (w : Wheel) : List (Entry K) → Int := sumSince fun e _ => e.delta w

/-- There was a sample since the last priming. -/
def started : List (Entry K) → Bool
  | [] => false
  | e :: past => if e.primes then false else e.samples || started past

/-- The delta of the first sample since the last priming. -/
def firstSince (w : Wheel) : List (Entry K) → Int :=
  sumSince fun e past => if started past then 0 else e.delta w

/-- How far a wheel went, by the velocities of a window. -/
def WheelOdometrySample.moved (s : WheelOdometrySample K) (wheel_track : K) : Wheel → K
  | .left => (s.vx_mps - 0.5 * wheel_track * s.vyaw_radps) * s.dt_s
  | .right => (s.vx_mps + 0.5 * wheel_track * s.vyaw_radps) * s.dt_s

def integratedSince (p : Params K) (w : Wheel) : List (Entry K) → K :=
  sumSince fun e _ => (e.out.sample.map fun s => s.moved p.wheel_track w).getD 0

/-- The magnitude in the last message. -/
def lastMagnitude (w : Wheel) : List (Entry K) → UInt32
  | [] => 0
  | e :: past => (e.out.wheel_ticks.map fun m => m.wheel_ticks w).getD (lastMagnitude w past)

/-- What a reader makes of a message and the one before. -/
def read (w : Wheel) (e : Entry K) (past : List (Entry K)) : Int :=
  match e.out.wheel_ticks with
  | none => 0
  | some m =>
    (if m.wheel_direction w = 0 then -1 else 1) * (m.wheel_ticks w - lastMagnitude w past).toNat

def readSince (w : Wheel) : List (Entry K) → Int := sumSince (read w)

/-! ## One tick -/

variable {p : Params K} {s : Node K} {tick : Tick K}

abbrev Newer (reading prev : Reading K) : Prop := ∀ w, prev.stamps w < reading.stamps w

abbrev Plausible (p : Params K) (reading prev : Reading K) (w : Wheel) : Prop :=
  IsPlausibleTickDelta (reading.ticks w - prev.ticks w) p.ticks_per_meter
    (reading.stamps w - prev.stamps w)

omit [Field K] in
theorem newer_iff (reading prev : Reading K) :
    ¬(reading.stamps .left ≤ prev.stamps .left ∨ reading.stamps .right ≤ prev.stamps .right) ↔
      Newer reading prev := by
  rw [not_or, not_le, not_le]
  constructor
  · rintro ⟨hleft, hright⟩ w
    cases w with
    | left => exact hleft
    | right => exact hright
  · exact fun h => ⟨h .left, h .right⟩

/-- The sample between two readings. -/
def sampleStep (reading prev : Reading K) : WheelTickStep K where
  kind := .kSample
  deltas w := reading.ticks w - prev.ticks w
  dt_s w := reading.stamps w - prev.stamps w

variable {prev reading : Reading K}

theorem Feed_sample (hnewer : Newer reading prev) (hsteady : ∀ w, Plausible p reading prev w) :
    WheelTickSampler.Feed (some prev) reading p.ticks_per_meter =
      (sampleStep reading prev, some reading) := by
  simp only [WheelTickSampler.Feed]
  rw [if_neg ((newer_iff reading prev).2 hnewer), if_neg (not_not.2 (hsteady .left)),
    if_neg (not_not.2 (hsteady .right))]
  rfl

theorem Feed_jump (hnewer : Newer reading prev) (hjump : ¬∀ w, Plausible p reading prev w) :
    ∃ w, ¬Plausible p reading prev w ∧
      WheelTickSampler.Feed (some prev) reading p.ticks_per_meter =
        ({ kind := .kReset
           dt_s := fun w => reading.stamps w - prev.stamps w
           reset_wheel := some w
           reset_jump := reading.ticks w - prev.ticks w }, some reading) := by
  simp only [WheelTickSampler.Feed]
  rw [if_neg ((newer_iff reading prev).2 hnewer)]
  by_cases hleft : Plausible p reading prev .left
  · have hright : ¬Plausible p reading prev .right := fun hright => hjump fun w => by
      cases w with
      | left => exact hleft
      | right => exact hright
    rw [if_neg (not_not.2 hleft), if_pos hright]
    exact ⟨.right, hright, rfl⟩
  · rw [if_pos hleft]
    exact ⟨.left, hleft, rfl⟩

theorem Feed_waiting (h : ¬Newer reading prev) :
    WheelTickSampler.Feed (some prev) reading p.ticks_per_meter = ({}, some prev) := by
  simp only [WheelTickSampler.Feed]
  rw [if_pos (not_not.1 fun hnot => h ((newer_iff reading prev).1 hnot))]

/-- What a control tick does, by what the sampler makes of it. -/
inductive Turn (p : Params K) (s : Node K) (tick : Tick K) : Out K × Node K → Prop
  | nothing (connected : Bool) : Turn p s tick ({}, { s with motors_were_connected := connected })
  | primed (connected : Bool) (odometry : XescOdometry K)
      (hodometry : odometry = s.odometry.Reset ∨
        odometry = s.odometry ∧ s.tick_sampler = none) :
    Turn p s tick ({ step := { kind := .kPrimed } },
      { s with motors_were_connected := connected, tick_sampler := some tick.reading, odometry })
  | jump (connected : Bool) (step : WheelTickStep K) (hkind : step.kind = .kReset)
      (hdeltas : step.deltas = fun _ => 0) :
    Turn p s tick ({ step },
      { s with
        motors_were_connected := connected
        tick_sampler := some tick.reading
        odometry := s.odometry.Reset })
  | sample (connected : Bool) (prev : Reading K) (hprev : s.tick_sampler = some prev)
      (hsteady : ∀ w, Plausible p tick.reading prev w) :
    Turn p s tick (publishSample p
      { s with motors_were_connected := connected, tick_sampler := some tick.reading } tick
      (sampleStep tick.reading prev))

theorem update_cases (s : Node K) (tick : Tick K) :
    Turn p s tick (update_odometry p s tick) ∧
      ∀ prev, s.tick_sampler = some prev → Newer tick.reading prev →
        (¬∀ w, Plausible p tick.reading prev w) →
        ∃ step : WheelTickStep K, step.kind = .kReset ∧
          (update_odometry p s tick).1 = { step } := by
  cases hprev : s.tick_sampler with
  | none =>
    refine ⟨?_, by simp⟩
    rw [update_odometry, hprev]
    exact .primed s.motors_were_connected s.odometry (.inr ⟨rfl, hprev⟩)
  | some prev =>
    by_cases hnewer : Newer tick.reading prev
    · by_cases hsteady : ∀ w, Plausible p tick.reading prev w
      · refine ⟨?_, fun prev' h _ hjump => ?_⟩
        · rw [update_odometry, hprev, Feed_sample hnewer hsteady]
          exact .sample s.motors_were_connected prev hprev hsteady
        · cases h
          exact absurd hsteady hjump
      · obtain ⟨w, _, hfeed⟩ := Feed_jump hnewer hsteady
        rw [update_odometry, hprev, hfeed]
        exact ⟨.jump s.motors_were_connected _ rfl rfl, fun _ _ _ _ => ⟨_, rfl, rfl⟩⟩
    · refine ⟨?_, fun prev' h hnewer' _ => ?_⟩
      · rw [update_odometry, hprev, Feed_waiting hnewer]
        have : ({ s with tick_sampler := some prev } : Node K) = s := by
          rw [← hprev]
        show Turn p s tick ({}, { s with tick_sampler := some prev })
        rw [this]
        exact .nothing s.motors_were_connected
      · cases h
        exact absurd hnewer' hnewer

theorem control_tick_turn (s : Node K) (tick : Tick K) :
    Turn p s tick (control_tick p s tick) := by
  by_cases hedge : tick.drives_ok ≠ s.motors_were_connected
  · cases hok : tick.drives_ok with
    | false =>
      have hlink : linkEdge s false = { s with motors_were_connected := false } := by
        rw [linkEdge, if_pos (by rwa [hok] at hedge)]
        rfl
      simp only [control_tick, hok, hlink]
      exact .nothing false
    | true =>
      have hlink : linkEdge s true =
          { s with
            motors_were_connected := true
            odometry := s.odometry.Reset
            tick_sampler := none } := by
        rw [linkEdge, if_pos (by rwa [hok] at hedge)]
        rfl
      simp only [control_tick, hok, hlink]
      exact .primed true s.odometry.Reset (.inl rfl)
  · have hlink : linkEdge s tick.drives_ok = s := if_neg hedge
    simp only [control_tick, hlink]
    cases tick.drives_ok with
    | false => exact .nothing s.motors_were_connected
    | true => exact (update_cases s tick).1

/-- A jump on one wheel, seen on a link that stays up, drops the step on both. -/
theorem control_tick_jump (hok : tick.drives_ok = true) (hup : s.motors_were_connected = true)
    (hprev : s.tick_sampler = some prev) (hnewer : Newer tick.reading prev)
    (hjump : ¬∀ w, Plausible p tick.reading prev w) :
    ∃ step : WheelTickStep K, step.kind = .kReset ∧ (control_tick p s tick).1 = { step } := by
  have hlink : linkEdge s tick.drives_ok = s := if_neg (by simp [hok, hup])
  simp only [control_tick, hlink]
  rw [if_pos hok]
  exact (update_cases s tick).2 prev hprev hnewer hjump

/-! ## The reader -/

omit [LinearOrder K] in
/-- A delta of less than 32 bits is read back. -/
theorem read_next (s : Node K) (w : Wheel) {deltas : Wheel → Int}
    (hsmall : (deltas w).natAbs < 2 ^ 32) :
    (if (WheelTick.next s deltas).wheel_direction w = 0 then (-1 : Int) else 1) *
      ((WheelTick.next s deltas).wheel_ticks w - s.wheel_tick_magnitude w).toNat = deltas w := by
  have hdiff : ((WheelTick.next s deltas).wheel_ticks w - s.wheel_tick_magnitude w).toNat =
      (deltas w).natAbs := by
    simp only [WheelTick.next]
    rw [UInt32.add_comm, UInt32.add_sub_cancel, UInt32.toNat_ofNat',
      Nat.mod_eq_of_lt hsmall]
  rw [hdiff]
  rcases lt_trichotomy (deltas w) 0 with h | h | h
  · have hback : (WheelTick.next s deltas).wheel_direction w = 0 := by
      simp [WheelTick.next, h, not_lt.2 h.le]
    rw [if_pos hback]
    omega
  · simp [h]
  · have hahead : (WheelTick.next s deltas).wheel_direction w ≠ 0 := by
      simp [WheelTick.next, h]
    rw [if_neg hahead]
    omega

/-! ## A window -/

theorem moved_sampleOf {acc : Wheel → Int} {acc_dt : K} (htrack : p.wheel_track ≠ 0)
    (hdt : acc_dt ≠ 0) [IsStrictOrderedRing K] (w : Wheel) :
    (XescOdometry.sampleOf p acc acc_dt).moved p.wheel_track w =
      (acc w : K) / p.ticks_per_meter := by
  have hhalf : (0.5 : K) = 1 / 2 := by norm_num
  cases w with
  | left =>
    simp only [WheelOdometrySample.moved, XescOdometry.sampleOf, hhalf]
    field_simp
    ring
  | right =>
    simp only [WheelOdometrySample.moved, XescOdometry.sampleOf, hhalf]
    field_simp
    ring

/-! ## What the state is, by the log -/

section Log

omit [LinearOrder K]

theorem started_reading {past : List (Entry K)} (h : started past = true) :
    (lastReading past).isSome = true := by
  induction past with
  | nil => simp [started] at h
  | cons e past ih =>
    rw [started] at h
    rw [lastReading]
    split
    · rfl
    · rename_i hnot
      have hnone : e.primes = false ∧ e.samples = false := by simpa using hnot
      rw [hnone.1, hnone.2] at h
      exact ih (by simpa using h)

structure Accounts (p : Params K) (past : List (Entry K)) (s : Node K) : Prop where
  reading : s.tick_sampler = lastReading past
  waiting : started past = false → s.odometry.prev = none ∧ ∀ w, s.odometry.acc w = 0
  primed : started past = true → s.odometry.prev = (lastReading past).map Reading.ticks
  magnitude : ∀ w, s.wheel_tick_magnitude w = lastMagnitude w past
  sampled : ∀ w, sampledSince w past + ((primingReading past).map fun r => r.ticks w).getD 0 =
    ((lastReading past).map fun r => r.ticks w).getD 0
  odometry : ∀ w, integratedSince p w past + (s.odometry.acc w : K) / p.ticks_per_meter =
    ((sampledSince w past - firstSince w past : Int) : K) / p.ticks_per_meter
  read : (∀ e ∈ past, ∀ w, (e.delta w).natAbs < 2 ^ 32) →
    ∀ w, readSince w past = sampledSince w past

/-- An entry that neither primes nor samples. -/
structure Quiet (e : Entry K) : Prop where
  primes : e.primes = false
  samples : e.samples = false
  delta : ∀ w, e.delta w = 0
  sample : e.out.sample = none
  message : e.out.wheel_ticks = none

theorem Accounts.quiet {past : List (Entry K)} {s t : Node K} (h : Accounts p past s)
    {e : Entry K} (he : Quiet e) (hsampler : t.tick_sampler = s.tick_sampler)
    (hodometry : t.odometry = s.odometry)
    (hmagnitude : t.wheel_tick_magnitude = s.wheel_tick_magnitude) :
    Accounts p (e :: past) t := by
  have hlast : lastReading (e :: past) = lastReading past := by
    simp [lastReading, he.primes, he.samples]
  have hpriming : primingReading (e :: past) = primingReading past := by
    simp [primingReading, he.primes]
  have hstarted : started (e :: past) = started past := by
    simp [started, he.primes, he.samples]
  have hsampled : ∀ w, sampledSince w (e :: past) = sampledSince w past := by
    simp [sampledSince, sumSince, he.primes, he.delta]
  have hfirst : ∀ w, firstSince w (e :: past) = firstSince w past := by
    simp [firstSince, sumSince, he.primes, he.delta]
  have hintegrated : ∀ w, integratedSince p w (e :: past) = integratedSince p w past := by
    simp [integratedSince, sumSince, he.primes, he.sample]
  refine ⟨?_, ?_, ?_, ?_, ?_, ?_, ?_⟩
  · rw [hsampler, hlast, h.reading]
  · rw [hstarted, hodometry]
    exact h.waiting
  · rw [hstarted, hodometry, hlast]
    exact h.primed
  · intro w
    rw [hmagnitude, h.magnitude w, lastMagnitude, he.message]
    rfl
  · intro w
    rw [hsampled, hpriming, hlast, h.sampled w]
  · intro w
    rw [hintegrated, hodometry, hsampled, hfirst, h.odometry w]
  · intro hsmall w
    rw [hsampled, ← h.read (fun e' he' => hsmall e' (by simp [he'])) w]
    simp [readSince, sumSince, he.primes, Xesc.read, he.message]

/-- A priming starts all the sums again. -/
theorem Accounts.priming {past : List (Entry K)} {s t : Node K} (h : Accounts p past s)
    {e : Entry K} (he : e.primes = true) (hmessage : e.out.wheel_ticks = none)
    (hsampler : t.tick_sampler = some e.tick.reading) (hprev : t.odometry.prev = none)
    (hacc : ∀ w, t.odometry.acc w = 0)
    (hmagnitude : t.wheel_tick_magnitude = s.wheel_tick_magnitude) :
    Accounts p (e :: past) t := by
  have hlast : lastReading (e :: past) = some e.tick.reading := by
    simp [lastReading, he]
  have hstarted : started (e :: past) = false := by
    simp [started, he]
  refine ⟨?_, ?_, ?_, ?_, ?_, ?_, ?_⟩
  · rw [hsampler, hlast]
  · exact fun _ => ⟨hprev, hacc⟩
  · rw [hstarted]
    exact fun h => absurd h (by simp)
  · intro w
    rw [hmagnitude, h.magnitude w, lastMagnitude, hmessage]
    rfl
  · intro w
    simp [sampledSince, sumSince, primingReading, hlast, he]
  · intro w
    simp [integratedSince, sampledSince, firstSince, sumSince, he, hacc]
  · intro _ w
    simp [readSince, sampledSince, sumSince, he]

end Log

/-- What a sample adds is in the window that is published or in the open one. -/
theorem Update_started [IsStrictOrderedRing K] (htrack : p.wheel_track ≠ 0) {o : XescOdometry K}
    {prev : Wheel → Int} (hprev : o.prev = some prev) (ticks : Wheel → Int) (dt_s : K) :
    (o.Update p ticks dt_s).2.prev = some ticks ∧
      ∀ w, ((o.Update p ticks dt_s).1.map fun sample => sample.moved p.wheel_track w).getD 0 +
          ((o.Update p ticks dt_s).2.acc w : K) / p.ticks_per_meter =
        ((o.acc w + (ticks w - prev w) : Int) : K) / p.ticks_per_meter := by
  simp only [XescOdometry.Update, hprev]
  by_cases hopen : o.acc_dt + max 0 dt_s < XescOdometry.kDefaultWindowS
  · rw [if_pos hopen]
    exact ⟨rfl, fun w => by simp⟩
  · have hwindow : (0 : K) < XescOdometry.kDefaultWindowS := by
      norm_num [XescOdometry.kDefaultWindowS]
    have hdt : o.acc_dt + max 0 dt_s ≠ 0 := fun h => hopen (by rw [h]; exact hwindow)
    rw [if_neg hopen]
    refine ⟨rfl, fun w => ?_⟩
    simp only [Option.map_some, Option.getD_some, Int.cast_zero, zero_div, add_zero]
    exact moved_sampleOf htrack hdt w

theorem Accounts.sample [IsStrictOrderedRing K] (htrack : p.wheel_track ≠ 0) {past : List (Entry K)}
    {s t : Node K} (h : Accounts p past s) (hprev : s.tick_sampler = some prev) {e : Entry K}
    (hprimes : e.primes = false) (hsamples : e.samples = true)
    (hdelta : ∀ w, e.delta w = e.tick.reading.ticks w - prev.ticks w)
    (hmessage : e.out.wheel_ticks = some (WheelTick.next s e.delta))
    (hsampler : t.tick_sampler = some e.tick.reading)
    (hmagnitude : t.wheel_tick_magnitude = (WheelTick.next s e.delta).wheel_ticks) (dt_s : K)
    (hupdate : s.odometry.Update p e.tick.reading.ticks dt_s = (e.out.sample, t.odometry)) :
    Accounts p (e :: past) t := by
  have hbefore : lastReading past = some prev := by rw [← h.reading, hprev]
  have hlast : lastReading (e :: past) = some e.tick.reading := by
    simp [lastReading, hsamples]
  have hstarted : started (e :: past) = true := by
    simp [started, hprimes, hsamples]
  have hsampled : ∀ w, sampledSince w (e :: past) = sampledSince w past + e.delta w := by
    simp [sampledSince, sumSince, hprimes]
  have hprev' : t.odometry.prev = some e.tick.reading.ticks ∧ ∀ w,
      integratedSince p w (e :: past) + (t.odometry.acc w : K) / p.ticks_per_meter =
        ((sampledSince w (e :: past) - firstSince w (e :: past) : Int) : K) /
          p.ticks_per_meter := by
    have hintegrated : ∀ w, integratedSince p w (e :: past) = integratedSince p w past +
        (e.out.sample.map fun sample => sample.moved p.wheel_track w).getD 0 := by
      simp [integratedSince, sumSince, hprimes]
    cases hbegun : started past with
    | false =>
      -- The first sample only primes the odometry.
      obtain ⟨hnone, hzero⟩ := h.waiting hbegun
      rw [XescOdometry.Update, hnone] at hupdate
      obtain ⟨hsample, hodometry⟩ := Prod.mk.inj hupdate
      refine ⟨by rw [← hodometry], fun w => ?_⟩
      have hfirst : firstSince w (e :: past) = firstSince w past + e.delta w := by
        simp [firstSince, sumSince, hprimes, hbegun]
      have hpast := h.odometry w
      rw [hintegrated, ← hsample, ← hodometry, hfirst, hsampled, add_sub_add_right_eq_sub, ← hpast]
      simp
    | true =>
      have hticks : s.odometry.prev = some prev.ticks := by
        rw [h.primed hbegun, hbefore]
        rfl
      obtain ⟨hnow, hadds⟩ := Update_started htrack hticks e.tick.reading.ticks dt_s
      rw [hupdate] at hnow hadds
      refine ⟨hnow, fun w => ?_⟩
      have hfirst : firstSince w (e :: past) = firstSince w past := by
        simp [firstSince, sumSince, hprimes, hbegun]
      have hpast := h.odometry w
      rw [hintegrated, add_assoc, hadds w, hfirst, hsampled, hdelta, Int.cast_add, add_div,
        ← add_assoc, hpast, ← add_div, ← Int.cast_add]
      congr 2
      ring
  refine ⟨hsampler.trans hlast.symm, ?_, fun _ => ?_, fun w => ?_, fun w => ?_, hprev'.2, ?_⟩
  · rw [hstarted]
    exact fun h => absurd h (by simp)
  · rw [hlast, hprev'.1]
    rfl
  · rw [hmagnitude, lastMagnitude, hmessage]
    rfl
  · have hpast := h.sampled w
    rw [hbefore] at hpast
    simp only [Option.map_some, Option.getD_some] at hpast
    rw [hsampled, hdelta, hlast, show primingReading (e :: past) = primingReading past by
      simp [primingReading, hprimes]]
    simp only [Option.map_some, Option.getD_some]
    linarith
  · intro hsmall w
    have hpast := h.read (fun e' he' => hsmall e' (by simp [he'])) w
    have hnow : Xesc.read w e past = e.delta w := by
      simp only [Xesc.read, hmessage]
      rw [← h.magnitude w]
      exact read_next s w (hsmall e (by simp) w)
    rw [hsampled, ← hpast, ← hnow]
    simp [readSince, sumSince, hprimes]

/-- What one turn does to the accounts. -/
theorem Accounts.turn [IsStrictOrderedRing K] (htrack : p.wheel_track ≠ 0)
    {past : List (Entry K)} {s : Node K} (h : Accounts p past s) {tick : Tick K}
    {r : Out K × Node K} (hturn : Turn p s tick r) :
    Accounts p ({ tick, before := s, out := r.1 } :: past) r.2 := by
  cases hturn with
  | nothing connected =>
    exact h.quiet ⟨by simp [Entry.primes], by simp [Entry.samples], fun _ => rfl, rfl, rfl⟩
      rfl rfl rfl
  | primed connected odometry hodometry =>
    have hempty : odometry.prev = none ∧ ∀ w, odometry.acc w = 0 := by
      rcases hodometry with rfl | ⟨rfl, hnone⟩
      · exact ⟨rfl, fun _ => rfl⟩
      · refine h.waiting (Bool.eq_false_iff.2 fun hstarted => ?_)
        have hreading := started_reading hstarted
        rw [← h.reading, hnone] at hreading
        exact absurd hreading (by simp)
    exact h.priming (by simp [Entry.primes]) rfl rfl hempty.1 hempty.2 rfl
  | jump connected step hkind hdeltas =>
    exact h.priming (by simp [Entry.primes, hkind]) rfl rfl rfl (fun _ => rfl) rfl
  | sample connected prev hprev hsteady =>
    exact h.sample htrack hprev (by simp [Entry.primes, publishSample, sampleStep])
      (by simp [Entry.samples, publishSample, sampleStep]) (fun _ => rfl) rfl rfl rfl _ rfl

theorem accounts_after [IsStrictOrderedRing K] (htrack : p.wheel_track ≠ 0)
    (ticks : List (Tick K)) : Accounts p (log p ticks) (nodeAfter p ticks) := by
  induction ticks with
  | nil =>
    refine ⟨rfl, fun _ => ⟨rfl, fun _ => rfl⟩, fun h => absurd h (by simp [log, started]),
      fun _ => rfl, fun _ => rfl, fun w => ?_, fun _ _ => rfl⟩
    simp [integratedSince, sampledSince, firstSince, sumSince, log, nodeAfter]
  | cons tick past ih => exact ih.turn htrack (control_tick_turn (nodeAfter p past) tick)

/-! ## Whole runs -/

omit [LinearOrder K] in
theorem primed_reading {past : List (Entry K)} (h : primingReading past = some reading) :
    (lastReading past).isSome = true := by
  induction past with
  | nil => simp [primingReading] at h
  | cons e past ih =>
    rw [primingReading] at h
    rw [lastReading]
    split
    · rfl
    · rename_i hnot
      have hnone : e.primes = false ∧ e.samples = false := by simpa using hnot
      rw [hnone.1] at h
      exact ih (by simpa using h)

/-- A sample is no more than its time allows, and a jump is no sample of either wheel. -/
structure Sound (p : Params K) (e : Entry K) (past : List (Entry K)) : Prop where
  sample : e.samples = true → ∃ prev, lastReading past = some prev ∧ ∀ w,
    e.delta w = e.tick.reading.ticks w - prev.ticks w ∧
      IsPlausibleTickDelta (e.delta w) p.ticks_per_meter
        (e.tick.reading.stamps w - prev.stamps w)
  jump : e.tick.drives_ok = true → e.before.motors_were_connected = true →
    ∀ prev, lastReading past = some prev → Newer e.tick.reading prev →
      (¬∀ w, Plausible p e.tick.reading prev w) →
      e.primes = true ∧ e.out.wheel_ticks = none ∧ e.out.sample = none

theorem sound_after [IsStrictOrderedRing K] (htrack : p.wheel_track ≠ 0)
    (ticks : List (Tick K)) : Always (Sound p) (log p ticks) := by
  induction ticks with
  | nil => trivial
  | cons tick past ih =>
    have hpast := accounts_after htrack past
    refine ⟨⟨fun hsamples => ?_, fun hok hup prev hprev hnewer hjump => ?_⟩, ih⟩
    · have hturn := control_tick_turn (p := p) (nodeAfter p past) tick
      simp only [Entry.samples, Entry.delta] at hsamples ⊢
      generalize control_tick p (nodeAfter p past) tick = r at hturn hsamples ⊢
      cases hturn with
      | nothing connected => simp at hsamples
      | primed connected odometry hodometry => simp at hsamples
      | jump connected step hkind hdeltas => simp [hkind] at hsamples
      | sample connected prev hprev hsteady =>
        exact ⟨prev, hpast.reading.symm.trans hprev, fun w => ⟨rfl, hsteady w⟩⟩
    · obtain ⟨step, hkind, hout⟩ :=
        control_tick_jump hok hup (hpast.reading.trans hprev) hnewer hjump
      simp only [Entry.primes, hout, hkind]
      simp

/-- Per wheel, at any point of a run: what was sampled since the last priming, what was read of it
    and what the windows make of it. -/
theorem outputs_telescope [IsStrictOrderedRing K] (p : Params K) (htrack : p.wheel_track ≠ 0)
    (ticks : List (Tick K)) :
    Always (Sound p) (log p ticks) ∧ ∀ w,
      (∀ prim, primingReading (log p ticks) = some prim →
        ∃ last, lastReading (log p ticks) = some last ∧
          sampledSince w (log p ticks) = last.ticks w - prim.ticks w) ∧
      ((∀ e ∈ log p ticks, ∀ w, (e.delta w).natAbs < 2 ^ 32) →
        readSince w (log p ticks) = sampledSince w (log p ticks)) ∧
      integratedSince p w (log p ticks) +
          ((nodeAfter p ticks).odometry.acc w : K) / p.ticks_per_meter =
        ((sampledSince w (log p ticks) - firstSince w (log p ticks) : Int) : K) /
          p.ticks_per_meter := by
  have h := accounts_after htrack ticks
  refine ⟨sound_after htrack ticks, fun w => ⟨fun prim hprim => ?_, fun hsmall => ?_, ?_⟩⟩
  · obtain ⟨last, hlast⟩ := Option.isSome_iff_exists.1 (primed_reading hprim)
    have hsum := h.sampled w
    rw [hprim, hlast] at hsum
    exact ⟨last, hlast, eq_sub_of_add_eq hsum⟩
  · exact h.read hsmall w
  · exact h.odometry w

/-- The default kinematics. -/
def kinematics : Params ℚ where
  ticks_per_meter := 1600
  wheel_track := 325 / 1000

/-- Both wheels go on by ten ticks within a fiftieth of a second. -/
def twoTicks : List (Tick ℚ) :=
  [{ drives_ok := true
     reading := { ticks := fun _ => 10, stamps := fun _ => 1 / 50 }
     is_charging := false },
   { drives_ok := true
     reading := { ticks := fun _ => 0, stamps := fun _ => 0 }
     is_charging := false }]

theorem outputs_telescope_two :
    Always (Sound kinematics) (log kinematics twoTicks) ∧ ∀ w,
      (∀ prim, primingReading (log kinematics twoTicks) = some prim →
        ∃ last, lastReading (log kinematics twoTicks) = some last ∧
          sampledSince w (log kinematics twoTicks) = last.ticks w - prim.ticks w) ∧
      ((∀ e ∈ log kinematics twoTicks, ∀ w, (e.delta w).natAbs < 2 ^ 32) →
        readSince w (log kinematics twoTicks) = sampledSince w (log kinematics twoTicks)) ∧
      integratedSince kinematics w (log kinematics twoTicks) +
          ((nodeAfter kinematics twoTicks).odometry.acc w : ℚ) / kinematics.ticks_per_meter =
        ((sampledSince w (log kinematics twoTicks) -
          firstSince w (log kinematics twoTicks) : Int) : ℚ) / kinematics.ticks_per_meter :=
  outputs_telescope kinematics (by decide +kernel) twoTicks

/-- A status packet after weeks, with as many ticks as a magnitude has values. -/
def longStall : List (Tick ℚ) :=
  [{ drives_ok := true
     reading := { ticks := fun _ => 4294967296, stamps := fun _ => 4194304 }
     is_charging := false },
   { drives_ok := true
     reading := { ticks := fun _ => 0, stamps := fun _ => 0 }
     is_charging := false }]

/-- The first sample is in `WheelTick` and not in the odometry, and a delta of 32 bits is in
    neither. -/
theorem outputs_disagree :
    (¬∀ (ticks : List (Tick ℚ)) (w : Wheel),
      integratedSince kinematics w (log kinematics ticks) +
          ((nodeAfter kinematics ticks).odometry.acc w : ℚ) / kinematics.ticks_per_meter =
        (sampledSince w (log kinematics ticks) : ℚ) / kinematics.ticks_per_meter) ∧
      ¬∀ (ticks : List (Tick ℚ)) (w : Wheel),
        readSince w (log kinematics ticks) = sampledSince w (log kinematics ticks) := by
  constructor
  · intro h
    exact absurd (h twoTicks .left) (by decide +kernel)
  · intro h
    exact absurd (h longStall .left) (by decide +kernel)

end Xesc
end OpenMower
end Mowgli
