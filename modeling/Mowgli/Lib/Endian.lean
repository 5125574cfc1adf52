import Mathlib.Algebra.Group.Nat.Defs
import Mathlib.Data.List.Basic

/-!
# Endian — unsigned numbers as rows of bytes
-/

namespace Mowgli
namespace Endian

/-- The number of a row whose first byte counts least. -/
def ofLittle : List UInt8 → Nat
  | [] => 0
  | b :: bytes => b.toNat + 256 * ofLittle bytes

/-- The number of a row whose first byte counts most. -/
def ofBig (bytes : List UInt8) : Nat := ofLittle bytes.reverse

/-- The lowest `n` bytes of a number, least first. -/
def toLittle : Nat → Nat → List UInt8
  | 0, _ => []
  | n + 1, x => UInt8.ofNat x :: toLittle n (x / 256)

/-- The number of a row of `w` bits in two's complement. -/
def signed (w n : Nat) : Int := if 2 * n < 1 <<< w then n else (n : Int) - (1 <<< w : Nat)

@[simp] theorem toLittle_length (n x : Nat) : (toLittle n x).length = n := by
  induction n generalizing x with
  | zero => rfl
  | succ n ih => exact congrArg Nat.succ (ih (x / 256))

theorem ofLittle_toLittle (n x : Nat) : ofLittle (toLittle n x) = x % 256 ^ n := by
  induction n generalizing x with
  | zero =>
    rw [Nat.pow_zero, Nat.mod_one]
    rfl
  | succ n ih =>
    show (UInt8.ofNat x).toNat + 256 * ofLittle (toLittle n (x / 256)) = x % 256 ^ (n + 1)
    rw [ih, UInt8.toNat_ofNat', Nat.pow_succ 256, Nat.mul_comm (256 ^ n), Nat.mod_mul]

/-- A number of `w` bits in two's complement is read back. -/
theorem signed_emod {w : Nat} {n : Int} (hlow : -(1 <<< w : Nat) ≤ 2 * n)
    (hhigh : 2 * n < (1 <<< w : Nat)) : signed w (n % (1 <<< w : Nat)).toNat = n := by
  unfold signed
  by_cases hneg : n < 0
  · have hmod : n % (1 <<< w : Nat) = n + (1 <<< w : Nat) := by
      rw [← Int.add_emod_right]
      exact Int.emod_eq_of_lt (by omega) (by omega)
    rw [hmod, if_neg (by omega)]
    omega
  · have hmod : n % (1 <<< w : Nat) = n := Int.emod_eq_of_lt (by omega) (by omega)
    rw [hmod, if_pos (by omega)]
    omega

end Endian
end Mowgli
