import Mathlib.Algebra.Group.Nat.Defs
import Mathlib.Algebra.Ring.Int.Defs

/-!
# Binary — floats as bit patterns

A finite single is an integer multiple of the smallest subnormal, `2^-149`. `units` is
that integer, so comparing two finite singles is comparing two integers, and the exact
sum of two is an integer again. `ofUnits` rounds one back to a single, to nearest with
ties to even. The firmware compares, rounds to an integer and copies them; nothing here is about the
arithmetic it does with them in its control loops.

A finite double is an integer multiple of `2^-1074`; `magnitude` is that integer without its sign.
Singles widen to doubles exactly, doubles narrow to singles to nearest with ties to even, and an
integer is taken out of a double by truncation.
-/

namespace Mowgli
namespace Binary32

/-- A single-precision float. -/
abbrev Bits := BitVec 32

def exponent (x : Bits) : Nat := ((x >>> 23) &&& 0xFF#32).toNat
def fraction (x : Bits) : Nat := (x &&& 0x7FFFFF#32).toNat

/-- `isfinite`. -/
def isFinite (x : Bits) : Bool := exponent x ≠ 255

/-- The value of a finite float, in units of `2^-149`. -/
def units (x : Bits) : Int :=
  let magnitude : Nat :=
    if exponent x = 0 then fraction x else (fraction x + 2 ^ 23) * 2 ^ (exponent x - 1)
  if x.msb then -(magnitude : Int) else magnitude

/-- The biased exponent and the significand of a magnitude, rounded to nearest even. -/
def round (magnitude : Nat) : Nat × Nat :=
  let shift := Nat.log2 magnitude - 23
  let quotient := magnitude / 2 ^ shift
  let rest := magnitude % 2 ^ shift
  let up := if 2 * rest > 2 ^ shift ∨ (2 * rest = 2 ^ shift ∧ quotient % 2 = 1) then 1 else 0
  if quotient + up = 2 ^ 24 then (shift + 2, 0)
  else if quotient + up < 2 ^ 23 then (0, quotient + up)
  else (shift + 1, quotient + up - 2 ^ 23)

/-- The float nearest to a number of units; past the range, infinity. -/
def ofUnits (n : Int) : Bits :=
  let r := round n.natAbs
  let magnitude := if r.1 ≥ 255 then 0x7F800000#32 else BitVec.ofNat 32 (r.1 * 2 ^ 23 + r.2)
  if n < 0 then 0x80000000#32 ||| magnitude else magnitude

/-- `a < b` of finite floats. -/
def lt (a b : Bits) : Bool := units a < units b

/-- `a == b` of finite floats; the two zeros are equal. -/
def eq (a b : Bits) : Bool := units a = units b

/-- `floorf(x + 0.5f)`: the sum rounds first, then the floor is exact. -/
def floorHalf (x : Bits) : Bits :=
  ofUnits (units (ofUnits (units x + 2 ^ 148)) / 2 ^ 149 * 2 ^ 149)

end Binary32

namespace Binary64

/-- A double-precision float. -/
abbrev Bits := BitVec 64

def exponent (x : Bits) : Nat := x.toNat / 2 ^ 52 % 2048
def fraction (x : Bits) : Nat := x.toNat % 2 ^ 52

def isFinite (x : Bits) : Bool := exponent x ≠ 2047

/-- The absolute value of a finite double, in units of `2^-1074`. -/
def magnitude (x : Bits) : Nat :=
  if exponent x = 0 then fraction x else (fraction x + 2 ^ 52) * 2 ^ (exponent x - 1)

def pack (negative : Bool) (exponent fraction : Nat) : Bits :=
  BitVec.ofNat 64 ((if negative then 2 ^ 63 else 0) + exponent * 2 ^ 52 + fraction)

/-- The double of `m * 2^scale` units, for an `m` of at most 53 bits. -/
def scaled (negative : Bool) (m scale : Nat) : Bits :=
  if m = 0 then pack negative 0 0
  else pack negative (m.log2 + scale - 51) ((m - 2 ^ m.log2) * 2 ^ (52 - m.log2))

/-- What `int64(x)` takes out of a finite double, before it is fitted into its type. -/
def truncate (x : Bits) : Int :=
  let n : Nat := magnitude x / 2 ^ 1074
  if x.msb then -(n : Int) else n

/-- `float64(s)` of a single. -/
def widen (s : Binary32.Bits) : Bits :=
  if Binary32.exponent s = 255 then pack s.msb 2047 (Binary32.fraction s * 2 ^ 29)
  else if Binary32.exponent s = 0 then scaled s.msb (Binary32.fraction s) 925
  else scaled s.msb (Binary32.fraction s + 2 ^ 23) (924 + Binary32.exponent s)

/-- `float32(x)` of a double. A single's units are `2^925` of the double's. -/
def narrow (x : Bits) : Binary32.Bits :=
  let sign := if x.msb then 2 ^ 31 else 0
  if !isFinite x then
    BitVec.ofNat 32 (sign + 255 * 2 ^ 23 + (if fraction x = 0 then 0 else 2 ^ 22))
  else
    let unit := if (magnitude x).log2 - 23 < 925 then 925 else (magnitude x).log2 - 23
    let quotient := magnitude x / 2 ^ unit
    let rest := magnitude x % 2 ^ unit
    let up := if 2 * rest > 2 ^ unit ∨ (2 * rest = 2 ^ unit ∧ quotient % 2 = 1) then 1 else 0
    -- a carry out of the significand lands in the exponent
    let bits := (unit - 925) * 2 ^ 23 + (quotient + up)
    BitVec.ofNat 32 (sign + if bits < 255 * 2 ^ 23 then bits else 255 * 2 ^ 23)

/-! ## What a pattern is made of -/

section Pack

variable {negative : Bool} {e f : Nat}

theorem pack_toNat (he : e < 2048) (hf : f < 2 ^ 52) :
    (pack negative e f).toNat = (if negative then 2 ^ 63 else 0) + e * 2 ^ 52 + f := by
  unfold pack
  rw [BitVec.toNat_ofNat]
  apply Nat.mod_eq_of_lt
  split <;> omega

theorem exponent_pack (he : e < 2048) (hf : f < 2 ^ 52) : exponent (pack negative e f) = e := by
  unfold exponent
  rw [pack_toNat he hf]
  split <;> omega

theorem fraction_pack (he : e < 2048) (hf : f < 2 ^ 52) : fraction (pack negative e f) = f := by
  unfold fraction
  rw [pack_toNat he hf]
  split <;> omega

theorem msb_pack (he : e < 2048) (hf : f < 2 ^ 52) : (pack negative e f).msb = negative := by
  rw [BitVec.msb_eq_decide, pack_toNat he hf]
  cases negative with
  | true =>
    rw [decide_eq_true_iff, if_pos rfl]
    omega
  | false =>
    rw [decide_eq_false_iff_not, if_neg Bool.false_ne_true]
    omega

end Pack

/-! ## Singles are doubles -/

/-- The bits of the significand below its leading one. -/
theorem significand {m : Nat} (hm : m ≠ 0) (hlog : m.log2 ≤ 52) :
    (m - 2 ^ m.log2) * 2 ^ (52 - m.log2) < 2 ^ 52 ∧
      (m - 2 ^ m.log2) * 2 ^ (52 - m.log2) + 2 ^ 52 = m * 2 ^ (52 - m.log2) := by
  have hle := Nat.log2_self_le hm
  have hlt : m < 2 ^ (m.log2 + 1) := Nat.lt_log2_self
  have hsplit : 2 ^ m.log2 * 2 ^ (52 - m.log2) = 2 ^ 52 := by
    rw [← Nat.pow_add, Nat.add_sub_cancel' hlog]
  have hpos : 0 < 2 ^ (52 - m.log2) := Nat.two_pow_pos _
  have hmul : m * 2 ^ (52 - m.log2) < 2 * 2 ^ 52 := by
    calc m * 2 ^ (52 - m.log2) < 2 ^ (m.log2 + 1) * 2 ^ (52 - m.log2) :=
          Nat.mul_lt_mul_of_pos_right hlt hpos
      _ = 2 * 2 ^ 52 := by rw [Nat.pow_succ, Nat.mul_right_comm, hsplit, Nat.mul_comm]
  have hge : 2 ^ m.log2 * 2 ^ (52 - m.log2) ≤ m * 2 ^ (52 - m.log2) :=
    Nat.mul_le_mul_right _ hle
  rw [Nat.sub_mul, hsplit]
  rw [hsplit] at hge
  omega

/-- A scaled double is what it was scaled from. -/
theorem magnitude_scaled (negative : Bool) {m scale : Nat} (hlog : m.log2 ≤ 52)
    (hlow : 52 ≤ scale) (hhigh : m.log2 + scale < 2098) :
    magnitude (scaled negative m scale) = m * 2 ^ scale ∧
      (scaled negative m scale).msb = negative := by
  unfold scaled
  by_cases hm : m = 0
  · rw [if_pos hm, hm, Nat.zero_mul]
    refine ⟨?_, msb_pack (by decide) (by decide)⟩
    unfold magnitude
    rw [exponent_pack (by decide) (by decide), if_pos rfl, fraction_pack (by decide) (by decide)]
  · rw [if_neg hm]
    obtain ⟨hfraction, hvalue⟩ := significand hm hlog
    have hexponent : m.log2 + scale - 51 < 2048 := by omega
    refine ⟨?_, msb_pack hexponent hfraction⟩
    unfold magnitude
    rw [exponent_pack hexponent hfraction, if_neg (by omega), fraction_pack hexponent hfraction,
      hvalue, Nat.mul_assoc, ← Nat.pow_add]
    congr 2
    omega

theorem isFinite_scaled (negative : Bool) {m scale : Nat} (hlog : m.log2 ≤ 52)
    (hhigh : m.log2 + scale < 2098) : isFinite (scaled negative m scale) = true := by
  have hexponent : exponent (scaled negative m scale) < 2047 := by
    unfold scaled
    split
    · rw [exponent_pack (by decide) (by decide)]
      decide
    · rename_i hm
      rw [exponent_pack (by omega) (significand hm hlog).1]
      omega
  exact decide_eq_true (Nat.ne_of_lt hexponent)

end Binary64

namespace Binary32

theorem exponent_eq (s : Bits) : exponent s = s.toNat / 2 ^ 23 % 256 := by
  unfold exponent
  rw [BitVec.toNat_and, BitVec.toNat_ushiftRight, Nat.shiftRight_eq_div_pow]
  exact Nat.and_two_pow_sub_one_eq_mod _ 8

theorem fraction_eq (s : Bits) : fraction s = s.toNat % 2 ^ 23 := by
  unfold fraction
  rw [BitVec.toNat_and]
  exact Nat.and_two_pow_sub_one_eq_mod _ 23

theorem toNat_eq (s : Bits) :
    s.toNat = (if s.msb then 2 ^ 31 else 0) + exponent s * 2 ^ 23 + fraction s := by
  have hlt := s.isLt
  rw [exponent_eq, fraction_eq, BitVec.msb_eq_decide]
  by_cases h : 2 ^ (32 - 1) ≤ s.toNat
  · rw [decide_eq_true h, if_pos rfl]
    omega
  · rw [decide_eq_false h, if_neg Bool.false_ne_true]
    omega

end Binary32

namespace Binary64

theorem log2_mul_two_pow {m : Nat} (hm : m ≠ 0) (k : Nat) : (m * 2 ^ k).log2 = m.log2 + k := by
  have hpos : 0 < 2 ^ k := Nat.two_pow_pos k
  rw [Nat.log2_eq_iff (Nat.mul_ne_zero hm (Nat.ne_of_gt hpos))]
  constructor
  · rw [Nat.pow_add]
    exact Nat.mul_le_mul_right _ (Nat.log2_self_le hm)
  · rw [Nat.add_right_comm, Nat.pow_add]
    exact Nat.mul_lt_mul_of_pos_right Nat.lt_log2_self hpos

/-- A magnitude that is a whole number of a single's last places narrows to that number. -/
theorem narrow_of_magnitude {x : Bits} {m k : Nat} (hfinite : isFinite x = true)
    (hvalue : magnitude x = m * 2 ^ (925 + k)) (hm : m < 2 ^ 24) (hk : k ≠ 0 → 2 ^ 23 ≤ m)
    (hrange : k * 2 ^ 23 + m < 255 * 2 ^ 23) :
    narrow x = BitVec.ofNat 32 ((if x.msb then 2 ^ 31 else 0) + (k * 2 ^ 23 + m)) := by
  have hlog : (magnitude x).log2 - 23 = 925 + k ∨ ((magnitude x).log2 - 23 < 925 ∧ k = 0) := by
    by_cases hzero : m = 0
    · right
      refine ⟨?_, ?_⟩
      · rw [hvalue, hzero, Nat.zero_mul]
        decide
      · by_contra hne
        have := hk hne
        omega
    · have hsum : (magnitude x).log2 = m.log2 + (925 + k) := by
        rw [hvalue, log2_mul_two_pow hzero]
      have hlt : m.log2 < 24 := (Nat.log2_lt hzero).2 hm
      by_cases hbig : 2 ^ 23 ≤ m
      · left
        have hge : 23 ≤ m.log2 := (Nat.le_log2 hzero).2 hbig
        omega
      · right
        have hsmall : m.log2 < 23 := (Nat.log2_lt hzero).2 (Nat.lt_of_not_le hbig)
        have hnone : k = 0 := by
          by_contra hne
          exact hbig (hk hne)
        omega
  have hunit : (if (magnitude x).log2 - 23 < 925 then 925 else (magnitude x).log2 - 23) =
      925 + k := by
    split <;> omega
  unfold narrow
  rw [hfinite]
  dsimp only
  rw [hunit, hvalue, Nat.mul_div_cancel _ (Nat.two_pow_pos _), Nat.mul_mod_left]
  have hpos : 0 < 2 ^ (925 + k) := Nat.two_pow_pos _
  rw [if_neg (c := 2 * 0 > 2 ^ (925 + k) ∨ 2 * 0 = 2 ^ (925 + k) ∧ m % 2 = 1) (by omega),
    Nat.add_sub_cancel_left, Nat.add_zero, if_pos hrange]
  rfl

theorem narrow_scaled (negative : Bool) {m : Nat} (k : Nat) (hm : m < 2 ^ 24)
    (hk : k ≠ 0 → 2 ^ 23 ≤ m) (hrange : k * 2 ^ 23 + m < 255 * 2 ^ 23) :
    narrow (scaled negative m (925 + k)) =
      BitVec.ofNat 32 ((if negative then 2 ^ 31 else 0) + (k * 2 ^ 23 + m)) := by
  have hlog : m.log2 ≤ 23 := by
    by_cases hzero : m = 0
    · rw [hzero]
      decide
    · exact Nat.le_of_lt_succ ((Nat.log2_lt hzero).2 hm)
  obtain ⟨hvalue, hsign⟩ := magnitude_scaled negative (show m.log2 ≤ 52 by omega)
    (show 52 ≤ 925 + k by omega) (by omega)
  have hfinite := isFinite_scaled negative (show m.log2 ≤ 52 by omega)
    (show m.log2 + (925 + k) < 2098 by omega)
  rw [narrow_of_magnitude hfinite hvalue hm hk hrange, hsign]

/-- A finite single widens and narrows to itself. -/
theorem narrow_widen {s : Binary32.Bits} (hs : Binary32.isFinite s = true) :
    narrow (widen s) = s := by
  have hexponent : Binary32.exponent s ≠ 255 := of_decide_eq_true hs
  have hbound : Binary32.exponent s < 256 := by
    rw [Binary32.exponent_eq]
    exact Nat.mod_lt _ (by decide)
  have hfraction : Binary32.fraction s < 2 ^ 23 := by
    rw [Binary32.fraction_eq]
    exact Nat.mod_lt _ (by decide)
  have hparts := Binary32.toNat_eq s
  have hlt := s.isLt
  unfold widen
  rw [if_neg hexponent]
  apply BitVec.eq_of_toNat_eq
  by_cases hzero : Binary32.exponent s = 0
  · rw [if_pos hzero, show 925 = 925 + 0 from rfl,
      narrow_scaled s.msb 0 (by omega) (fun h => absurd rfl h) (by omega), BitVec.toNat_ofNat,
      Nat.mod_eq_of_lt (by split <;> omega)]
    omega
  · rw [if_neg hzero, show 924 + Binary32.exponent s = 925 + (Binary32.exponent s - 1) by omega,
      narrow_scaled s.msb _ (by omega) (fun _ => by omega) (by omega), BitVec.toNat_ofNat,
      Nat.mod_eq_of_lt (by split <;> omega)]
    omega

/-- A double that is an integer is truncated to it. -/
theorem truncate_eq {x : Bits} {n : Int} (hvalue : magnitude x = n.natAbs * 2 ^ 1074)
    (hsign : n = 0 ∨ x.msb = decide (n < 0)) : truncate x = n := by
  unfold truncate
  rw [hvalue, Nat.mul_div_cancel _ (Nat.two_pow_pos 1074)]
  obtain hzero | hsign := hsign
  · rw [hzero]
    simp
  · rw [hsign]
    by_cases hneg : n < 0
    · rw [if_pos (decide_eq_true hneg)]
      omega
    · rw [if_neg (by simpa using hneg)]
      omega

end Binary64
end Mowgli
