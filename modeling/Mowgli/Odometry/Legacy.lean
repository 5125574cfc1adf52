import Mathlib.Algebra.BigOperators.Intervals
import Mathlib.Data.BitVec

/-!
# Legacy — the odometry of the previous protocols

`legacy_odometry.hpp`. A v7 or v8 board reports cumulative ticks that jump by 65536 when the
16-bit counter of the motor controller wraps, and the time since the packet before. The decoder
makes of them ticks without jumps and a clock. Both count modulo 2³², as the fields do.
-/

namespace Mowgli
namespace Odometry

/-- `LlOdometryV8`. -/
structure LlOdometryV8 where
  type : BitVec 8
  dtMillis : BitVec 16
  leftTicks : BitVec 32
  rightTicks : BitVec 32
  leftVelocityMmS : BitVec 16
  rightVelocityMmS : BitVec 16
  crc : BitVec 16

/-- `LlOdometry`. -/
structure LlOdometry where
  type : BitVec 8
  acquisitionMillis : BitVec 32
  leftTicks : BitVec 32
  rightTicks : BitVec 32
  leftVelocityMmS : BitVec 16
  rightVelocityMmS : BitVec 16
  crc : BitVec 16

/-- `unwrap_legacy_16bit_delta`. -/
def unwrapLegacy16bitDelta (d : BitVec 32) : BitVec 32 :=
  if 32768 < d.toInt then d - 65536#32
  else if d.toInt < -32768 then d + 65536#32
  else d

/-- `LegacyOdometryDecoder`. -/
structure LegacyOdometryDecoder where
  initialized : Bool
  acquisitionMs : BitVec 32
  prevRawLeft : BitVec 32
  prevRawRight : BitVec 32
  left : BitVec 32
  right : BitVec 32

namespace LegacyOdometryDecoder

/-- The decoder as it is constructed. -/
def new : LegacyOdometryDecoder :=
  { initialized := false, acquisitionMs := 0#32, prevRawLeft := 0#32, prevRawRight := 0#32,
    left := 0#32, right := 0#32 }

def reset (d : LegacyOdometryDecoder) : LegacyOdometryDecoder :=
  { d with
    initialized := false
    acquisitionMs := 0#32
    prevRawLeft := 0#32
    prevRawRight := 0#32
    left := 0#32
    right := 0#32 }

def convert (d : LegacyOdometryDecoder) (packet : LlOdometryV8) :
    LlOdometry × LegacyOdometryDecoder :=
  let counted : LegacyOdometryDecoder :=
    -- The first packet only seeds the baselines.
    if !d.initialized then
      { d with initialized := true, left := packet.leftTicks, right := packet.rightTicks }
    else
      { d with
        acquisitionMs := d.acquisitionMs + packet.dtMillis.setWidth 32
        left := d.left + unwrapLegacy16bitDelta (packet.leftTicks - d.prevRawLeft)
        right := d.right + unwrapLegacy16bitDelta (packet.rightTicks - d.prevRawRight) }
  ({ type := packet.type
     acquisitionMillis := counted.acquisitionMs
     leftTicks := counted.left
     rightTicks := counted.right
     leftVelocityMmS := packet.leftVelocityMmS
     rightVelocityMmS := packet.rightVelocityMmS
     crc := packet.crc },
    { counted with prevRawLeft := packet.leftTicks, prevRawRight := packet.rightTicks })

/-- What a stream of packets is converted to. -/
def converted (d : LegacyOdometryDecoder) : List LlOdometryV8 → List LlOdometry
  | [] => []
  | packet :: packets => (d.convert packet).1 :: (d.convert packet).2.converted packets

/-- The decoder between two packets. -/
def between (packet : LlOdometryV8) (out : LlOdometry) : LegacyOdometryDecoder :=
  { initialized := true
    acquisitionMs := out.acquisitionMillis
    prevRawLeft := packet.leftTicks
    prevRawRight := packet.rightTicks
    left := out.leftTicks
    right := out.rightTicks }

theorem convert_between (d : LegacyOdometryDecoder) (packet : LlOdometryV8) :
    (d.convert packet).2 = between packet (d.convert packet).1 := by
  unfold convert between
  cases d.initialized with
  | true => rfl
  | false => rfl

theorem length_converted (d : LegacyOdometryDecoder) (packets : List LlOdometryV8) :
    (d.converted packets).length = packets.length := by
  induction packets generalizing d with
  | nil => rfl
  | cons packet packets ih => exact congrArg (· + 1) (ih _)

/-- Between two outputs there is one conversion. -/
theorem converted_succ {d : LegacyOdometryDecoder} {packets : List LlOdometryV8} {k : Nat}
    {p q : LlOdometryV8} {out next : LlOdometry} (hp : packets[k]? = some p)
    (hq : packets[k + 1]? = some q) (hout : (d.converted packets)[k]? = some out)
    (hnext : (d.converted packets)[k + 1]? = some next) :
    next = ((between p out).convert q).1 := by
  induction packets generalizing d k with
  | nil => cases hp
  | cons first packets ih =>
    cases k with
    | zero =>
      cases packets with
      | nil => cases hq
      | cons second packets =>
        cases hp
        cases hq
        cases hout
        cases hnext
        rw [convert_between]
    | succ k => exact ih hp hq hout hnext

end LegacyOdometryDecoder

/-! ## The motion -/

inductive Wheel where
  | left
  | right

def Wheel.raw : Wheel → LlOdometryV8 → BitVec 32
  | left => LlOdometryV8.leftTicks
  | right => LlOdometryV8.rightTicks

def Wheel.ticks : Wheel → LlOdometry → BitVec 32
  | left => LlOdometry.leftTicks
  | right => LlOdometry.rightTicks

/-- The reports of a wheel follow its displacements `moved k`, from one packet to the next, but
for a wrap of the 16-bit counter. -/
def Follows (wheel : Wheel) (moved : Nat → Int) (packets : List LlOdometryV8) : Prop :=
  ∀ k p q, packets[k]? = some p → packets[k + 1]? = some q →
    -32768 < moved (k + 1) ∧ moved (k + 1) < 32768 ∧
    ∃ wrap : Int, (wrap = 0 ∨ wrap = 65536 ∨ wrap = -65536) ∧
      wheel.raw q - wheel.raw p = BitVec.ofInt 32 (moved (k + 1) + wrap)

theorem toInt_ofInt_small {x : Int} (hlo : -2147483648 ≤ x) (hhi : x < 2147483648) :
    (BitVec.ofInt 32 x).toInt = x := by
  rw [BitVec.toInt_ofInt]
  exact Int.bmod_eq_of_le (by omega) (by omega)

/-- **The wrap is taken back.** -/
theorem unwrap_ofInt {d wrap : Int} (hlo : -32768 < d) (hhi : d < 32768)
    (hwrap : wrap = 0 ∨ wrap = 65536 ∨ wrap = -65536) :
    unwrapLegacy16bitDelta (BitVec.ofInt 32 (d + wrap)) = BitVec.ofInt 32 d := by
  have hint : (BitVec.ofInt 32 (d + wrap)).toInt = d + wrap :=
    toInt_ofInt_small (by omega) (by omega)
  unfold unwrapLegacy16bitDelta
  rw [hint]
  rcases hwrap with rfl | rfl | rfl
  · rw [if_neg (by omega), if_neg (by omega), Int.add_zero]
  · rw [if_pos (by omega), BitVec.ofInt_add]
    exact BitVec.add_sub_cancel _ _
  · rw [if_neg (by omega), if_pos (by omega), BitVec.ofInt_add, BitVec.add_assoc]
    exact BitVec.add_zero _

theorem ticks_convert (wheel : Wheel) (p q : LlOdometryV8) (out : LlOdometry) :
    wheel.ticks ((LegacyOdometryDecoder.between p out).convert q).1 =
      wheel.ticks out + unwrapLegacy16bitDelta (wheel.raw q - wheel.raw p) := by
  cases wheel with
  | left => rfl
  | right => rfl

variable {a b : LlOdometry}

/-- Differences from one output to the next add up. -/
theorem telescope {outs : List LlOdometry} {value : LlOdometry → BitVec 32} {step : Nat → Int}
    (hstep : ∀ k a b, outs[k]? = some a → outs[k + 1]? = some b →
      value b = value a + BitVec.ofInt 32 (step (k + 1))) {i j : Nat} (hij : i ≤ j)
    (ha : outs[i]? = some a) (hb : outs[j]? = some b) :
    value b - value a = BitVec.ofInt 32 (∑ k ∈ Finset.Ioc i j, step k) := by
  induction j, hij using Nat.le_induction generalizing b with
  | base =>
    rw [ha] at hb
    cases hb
    rw [BitVec.sub_self, Finset.Ioc_self, Finset.sum_empty]
    rfl
  | succ j hij ih =>
    have hlt : j < outs.length := by
      have := (List.getElem?_eq_some_iff.1 hb).1
      omega
    have hmid : outs[j]? = some outs[j] := List.getElem?_eq_getElem hlt
    have hbefore := ih hmid
    have hlast := hstep j outs[j] b hmid hb
    rw [Finset.sum_Ioc_succ_top hij, BitVec.ofInt_add, ← hbefore, hlast]
    exact add_sub_right_comm _ _ _

section Stream

variable {packets : List LlOdometryV8} (d : LegacyOdometryDecoder)

open LegacyOdometryDecoder (converted length_converted converted_succ)

/-- The packets under two outputs. -/
theorem converted_packet {k : Nat} {out : LlOdometry} (h : (d.converted packets)[k]? = some out) :
    ∃ p, packets[k]? = some p := by
  have hlt := (List.getElem?_eq_some_iff.1 h).1
  rw [length_converted] at hlt
  exact ⟨packets[k], List.getElem?_eq_getElem hlt⟩

theorem ticks_step {wheel : Wheel} {moved : Nat → Int} (hfollows : Follows wheel moved packets)
    {k : Nat} (ha : (d.converted packets)[k]? = some a)
    (hb : (d.converted packets)[k + 1]? = some b) :
    wheel.ticks b = wheel.ticks a + BitVec.ofInt 32 (moved (k + 1)) := by
  obtain ⟨p, hp⟩ := converted_packet d ha
  obtain ⟨q, hq⟩ := converted_packet d hb
  obtain ⟨hlo, hhi, wrap, hwrap, hraw⟩ := hfollows k p q hp hq
  rw [converted_succ hp hq ha hb, ticks_convert, hraw, unwrap_ofInt hlo hhi hwrap]

/-- The interval a packet reports. -/
def interval (packets : List LlOdometryV8) (k : Nat) : Int :=
  (packets[k]?.map fun packet => (packet.dtMillis.toNat : Int)).getD 0

theorem acquisition_step {k : Nat} (ha : (d.converted packets)[k]? = some a)
    (hb : (d.converted packets)[k + 1]? = some b) :
    b.acquisitionMillis = a.acquisitionMillis + BitVec.ofInt 32 (interval packets (k + 1)) := by
  obtain ⟨p, hp⟩ := converted_packet d ha
  obtain ⟨q, hq⟩ := converted_packet d hb
  have hinterval : interval packets (k + 1) = q.dtMillis.toNat := by
    unfold interval
    rw [hq]
    rfl
  rw [converted_succ hp hq ha hb, hinterval, BitVec.ofInt_natCast,
    BitVec.ofNat_toNat]
  rfl

/-- **No motion is lost and none invented**, on either wheel and by any decoder. -/
theorem legacy_odometry_exact (packets : List LlOdometryV8) (d : LegacyOdometryDecoder) :
    let outs := d.converted packets
    outs.length = packets.length ∧
    (∀ (wheel : Wheel) (moved : Nat → Int), Follows wheel moved packets →
      ∀ i j a b, i < j → outs[i]? = some a → outs[j]? = some b →
        wheel.ticks b - wheel.ticks a = BitVec.ofInt 32 (∑ k ∈ Finset.Ioc i j, moved k)) ∧
    (∀ i j a b, i < j → outs[i]? = some a → outs[j]? = some b →
      b.acquisitionMillis - a.acquisitionMillis =
        BitVec.ofInt 32 (∑ k ∈ Finset.Ioc i j, interval packets k)) ∧
    ∀ packet, (d.reset.convert packet).1.leftTicks = packet.leftTicks ∧
      (d.reset.convert packet).1.rightTicks = packet.rightTicks ∧
      (d.reset.convert packet).1.acquisitionMillis = 0#32 ∧
      d.reset.convert packet = LegacyOdometryDecoder.new.convert packet := by
  intro outs
  refine ⟨length_converted d packets, ?_, ?_, fun packet => ⟨rfl, rfl, rfl, rfl⟩⟩
  · intro wheel moved hfollows i j a b hij ha hb
    exact telescope (fun k a b ha hb => ticks_step d hfollows ha hb) (Nat.le_of_lt hij) ha hb
  · intro i j a b hij ha hb
    exact telescope (fun k a b ha hb => acquisition_step d ha hb) (Nat.le_of_lt hij) ha hb

/-- The counter of the left wheel wraps between two packets; the right wheel stands. -/
def wrapping : List LlOdometryV8 :=
  [⟨1#8, 20#16, 65535#32, 7#32, 0#16, 0#16, 0#16⟩, ⟨1#8, 20#16, 3#32, 7#32, 0#16, 0#16, 0#16⟩]

theorem legacy_odometry_exact_wrapping :
    ∃ a b, LegacyOdometryDecoder.new.converted wrapping = [a, b] ∧
      Wheel.left.ticks b - Wheel.left.ticks a = 4#32 := by
  have hfollows : Follows .left (fun _ => 4) wrapping := by
    intro k p q hp hq
    cases k with
    | zero =>
      cases hp
      cases hq
      exact ⟨by decide, by decide, -65536, by decide, by decide⟩
    | succ k => cases hq
  exact ⟨_, _, rfl, (legacy_odometry_exact wrapping .new).2.1 .left _ hfollows 0 1 _ _
    Nat.zero_lt_one rfl rfl⟩

end Stream

end Odometry
end Mowgli
