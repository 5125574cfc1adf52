import Mathlib.Algebra.Order.Field.Basic
import Mathlib.Data.Rat.Cast.OfScientific

/-!
# XescOdometry — two tick counters, two outputs

`xesc_odometry.hpp` and `update_odometry`: the sampler pairs the ticks of the two drive controllers
with the time between their status packets; what it samples goes to `WheelTick` as an unsigned
magnitude with a direction, and to the wheel odometry by windows.

**Each keeps its own previous reading**, and the odometry is primed by the first sample that comes
after the sampler was. Exact arithmetic; a difference of two 64-bit counters does not overflow.
-/

namespace Mowgli
namespace OpenMower
namespace Xesc

inductive Wheel where
  | left
  | right
  deriving DecidableEq

variable (K : Type)

inductive Kind where
  | kWaiting
  | kPrimed
  | kSample
  | kReset
  deriving DecidableEq

/-- The counters and `last_status` of both controllers. -/
structure Reading where
  ticks : Wheel → Int
  stamps : Wheel → K

variable [Field K]

structure WheelTickStep where
  kind : Kind := .kWaiting
  deltas : Wheel → Int := fun _ => 0
  dt_s : Wheel → K := fun _ => 0
  reset_wheel : Option Wheel := none
  reset_jump : Int := 0

/-- The previous reading, once `primed_`. -/
abbrev WheelTickSampler := Option (Reading K)

structure WheelOdometrySample where
  vx_mps : K
  vyaw_radps : K
  /-- `d_left_m` and `d_right_m`. -/
  d_m : Wheel → K
  dt_s : K

structure XescOdometry where
  /-- `prev_left_` and `prev_right_`, once `primed_`. -/
  prev : Option (Wheel → Int) := none
  acc : Wheel → Int := fun _ => 0
  acc_dt : K := 0
  stationary : Bool := true
  tyre_travelled_m : K := 0

structure Params where
  ticks_per_meter : K
  wheel_track : K

variable {K} [LinearOrder K]

def kMaxPlausibleWheelSpeedMps : K := 2.0

def kTickDeltaSlack : K := 50.0

def IsPlausibleTickDelta (delta : Int) (ticks_per_meter dt_s : K) : Prop :=
  |(delta : K)| ≤ kMaxPlausibleWheelSpeedMps * ticks_per_meter * max dt_s 0 + kTickDeltaSlack

instance (delta : Int) (ticks_per_meter dt_s : K) :
    Decidable (IsPlausibleTickDelta delta ticks_per_meter dt_s) :=
  inferInstanceAs (Decidable (_ ≤ _))

namespace WheelTickSampler

/-- A jump that is seen on one wheel primes both. -/
def jumped (reading : Reading K) (w : Wheel) (deltas : Wheel → Int) (dt_s : Wheel → K) :
    WheelTickStep K × WheelTickSampler K :=
  ({ kind := .kReset, dt_s, reset_wheel := some w, reset_jump := deltas w }, some reading)

def Feed (s : WheelTickSampler K) (reading : Reading K) (ticks_per_meter : K) :
    WheelTickStep K × WheelTickSampler K :=
  match s with
  | none => ({ kind := .kPrimed }, some reading)
  | some prev =>
    if reading.stamps .left ≤ prev.stamps .left ∨ reading.stamps .right ≤ prev.stamps .right then
      ({}, some prev)
    else
      let deltas := fun w => reading.ticks w - prev.ticks w
      let dt_s := fun w => reading.stamps w - prev.stamps w
      if ¬IsPlausibleTickDelta (deltas .left) ticks_per_meter (dt_s .left) then
        jumped reading .left deltas dt_s
      else if ¬IsPlausibleTickDelta (deltas .right) ticks_per_meter (dt_s .right) then
        jumped reading .right deltas dt_s
      else ({ kind := .kSample, deltas, dt_s }, some reading)

end WheelTickSampler

namespace XescOdometry

def kDefaultWindowS : K := 0.05

def Reset (o : XescOdometry K) : XescOdometry K :=
  { o with prev := none, acc := fun _ => 0, acc_dt := 0, stationary := true }

variable (p : Params K)

/-- What is published of a window. -/
def sampleOf (acc : Wheel → Int) (acc_dt : K) : WheelOdometrySample K :=
  let d_m := fun w => (acc w : K) / p.ticks_per_meter
  { vx_mps := 0.5 * (d_m .left + d_m .right) / acc_dt
    vyaw_radps := (d_m .right - d_m .left) / p.wheel_track / acc_dt
    d_m
    dt_s := acc_dt }

def Update (o : XescOdometry K) (ticks : Wheel → Int) (dt_s : K) :
    Option (WheelOdometrySample K) × XescOdometry K :=
  match o.prev with
  | none => (none, { o with prev := some ticks })
  | some prev =>
    let acc := fun w => o.acc w + (ticks w - prev w)
    let acc_dt := o.acc_dt + max 0 dt_s
    if acc_dt < kDefaultWindowS then (none, { o with prev := some ticks, acc, acc_dt })
    else
      let s := sampleOf p acc acc_dt
      (some s,
        { prev := some ticks
          acc := fun _ => 0
          acc_dt := 0
          stationary := decide (acc .left = 0 ∧ acc .right = 0)
          tyre_travelled_m := o.tyre_travelled_m + max |s.d_m .left| |s.d_m .right| })

end XescOdometry

/-! ## The node -/

structure WheelTick where
  wheel_direction : Wheel → UInt8
  wheel_ticks : Wheel → UInt32

variable (K)

structure Node where
  motors_were_connected : Bool := false
  tick_sampler : WheelTickSampler K := none
  odometry : XescOdometry K := {}
  wheel_tick_magnitude : Wheel → UInt32 := fun _ => 0
  wheel_tick_direction : Wheel → UInt8 := fun _ => 1

/-- What a control tick finds. -/
structure Tick where
  drives_ok : Bool
  reading : Reading K
  is_charging : Bool

/-- What it puts out. -/
structure Out where
  step : WheelTickStep K := {}
  wheel_ticks : Option WheelTick := none
  /-- The window that is published, before `force_zero`. -/
  sample : Option (WheelOdometrySample K) := none
  /-- `linear.x` and `angular.z`. -/
  wheel_odom : Option (K × K) := none

variable {K}

/-- The magnitude and the direction after a sample. -/
def WheelTick.next (s : Node K) (deltas : Wheel → Int) : WheelTick where
  wheel_direction w :=
    if 0 < deltas w then 1 else if deltas w < 0 then 0 else s.wheel_tick_direction w
  wheel_ticks w := s.wheel_tick_magnitude w + UInt32.ofNat (deltas w).natAbs

def forceZero (is_charging : Bool) (sample : WheelOdometrySample K) : K × K :=
  if is_charging then (0, 0) else (sample.vx_mps, sample.vyaw_radps)

variable (p : Params K)

/-- The tail of `update_odometry`, for a sample. -/
def publishSample (s : Node K) (tick : Tick K) (step : WheelTickStep K) : Out K × Node K :=
  let wt := WheelTick.next s step.deltas
  let updated := s.odometry.Update p tick.reading.ticks
    (0.5 * (step.dt_s .left + step.dt_s .right))
  ({ step
     wheel_ticks := some wt
     sample := updated.1
     wheel_odom := updated.1.map (forceZero tick.is_charging) },
    { s with
      wheel_tick_magnitude := wt.wheel_ticks
      wheel_tick_direction := wt.wheel_direction
      odometry := updated.2 })

def update_odometry (s : Node K) (tick : Tick K) : Out K × Node K :=
  let fed := s.tick_sampler.Feed tick.reading p.ticks_per_meter
  let s := { s with tick_sampler := fed.2 }
  match fed.1.kind with
  | .kWaiting => ({ step := fed.1 }, s)
  | .kPrimed => ({ step := fed.1 }, s)
  | .kReset => ({ step := fed.1 }, { s with odometry := s.odometry.Reset })
  | .kSample => publishSample p s tick fed.1

/-- The link edge of `control_tick`. -/
def linkEdge (s : Node K) (drives_ok : Bool) : Node K :=
  if drives_ok ≠ s.motors_were_connected then
    let s := { s with motors_were_connected := drives_ok }
    if drives_ok then { s with odometry := s.odometry.Reset, tick_sampler := none } else s
  else s

def control_tick (s : Node K) (tick : Tick K) : Out K × Node K :=
  let s := linkEdge s tick.drives_ok
  if tick.drives_ok then update_odometry p s tick else ({}, s)

/-- After these ticks, the last one first. -/
def nodeAfter : List (Tick K) → Node K
  | [] => {}
  | tick :: past => (control_tick p (nodeAfter past) tick).2

end Xesc
end OpenMower
end Mowgli
