import Mathlib.Algebra.Order.Field.Basic
import Mathlib.Tactic.Linarith
import Mathlib.Tactic.LinearCombination
import Mathlib.Tactic.Ring

/-!
# Segment — the nearest point of a segment

Over an ordered field, where there need be no roots, distances are compared by their squares.
Along the line through the ends the squared distance is least at the foot of the perpendicular,
so the nearest point of the segment is the foot moved between the ends.
-/

namespace Mowgli
namespace Segment

variable {K : Type} [Field K]

def sqDist (p q : K × K) : K := (p.1 - q.1) * (p.1 - q.1) + (p.2 - q.2) * (p.2 - q.2)

theorem sqDist_comm (p q : K × K) : sqDist p q = sqDist q p := by
  unfold sqDist
  ring

/-- The point at a part of the way. -/
def along (a b : K × K) (t : K) : K × K := (a.1 + t * (b.1 - a.1), a.2 + t * (b.2 - a.2))

@[simp] theorem along_zero (a b : K × K) : along a b 0 = a := by
  unfold along
  simp

@[simp] theorem along_one (a b : K × K) : along a b 1 = b := by
  unfold along
  simp

/-- A point of an edge on the line of the segment, by the parts at which the edge ends. -/
theorem along_along (a b : K × K) (x y u : K) :
    along (along a b x) (along a b y) u = along a b (x + u * (y - x)) := by
  unfold along
  refine Prod.ext ?_ ?_
  · simp only
    ring
  · simp only
    ring

variable {a b : K × K}

theorem along_injective (h : sqDist b a ≠ 0) {s t : K} (heq : along a b s = along a b t) :
    s = t := by
  have hx := congrArg Prod.fst heq
  have hy := congrArg Prod.snd heq
  unfold along at hx hy
  simp only at hx hy
  have hlen : sqDist b a = (b.1 - a.1) * (b.1 - a.1) + (b.2 - a.2) * (b.2 - a.2) := rfl
  apply mul_left_cancel₀ h
  rw [hlen]
  linear_combination (b.1 - a.1) * hx + (b.2 - a.2) * hy

/-- Where the foot of the perpendicular is. -/
def foot (p a b : K × K) : K :=
  ((p.1 - a.1) * (b.1 - a.1) + (p.2 - a.2) * (b.2 - a.2)) / sqDist b a

/-- Along a line the squared distance grows with the square of the way from the foot. -/
theorem sqDist_along (h : sqDist b a ≠ 0) (p : K × K) (t : K) :
    sqDist p (along a b t) =
      sqDist p a - sqDist b a * foot p a b ^ 2 + sqDist b a * (t - foot p a b) ^ 2 := by
  have hfoot : sqDist b a * foot p a b =
      (p.1 - a.1) * (b.1 - a.1) + (p.2 - a.2) * (b.2 - a.2) := mul_div_cancel₀ _ h
  have hsquare : sqDist b a * (t - foot p a b) ^ 2 - sqDist b a * foot p a b ^ 2 =
      sqDist b a * t ^ 2 - 2 * t * (sqDist b a * foot p a b) := by ring
  have hway : sqDist p (along a b t) = sqDist p a + (sqDist b a * t ^ 2 -
      2 * t * ((p.1 - a.1) * (b.1 - a.1) + (p.2 - a.2) * (b.2 - a.2))) := by
    unfold sqDist along
    ring
  rw [hway, ← hfoot, ← hsquare]
  ring

variable [LinearOrder K]

def OnSegment (a b q : K × K) : Prop := ∃ t, 0 ≤ t ∧ t ≤ 1 ∧ q = along a b t

structure Nearest (a b p q : K × K) : Prop where
  on : OnSegment a b q
  nearest : ∀ q', OnSegment a b q' → sqDist p q ≤ sqDist p q'

/-- A number moved into the unit interval. -/
def unitClamp (u : K) : K := if u < 0 then 0 else if 1 < u then 1 else u

variable [IsStrictOrderedRing K]

theorem unitClamp_mem (u : K) : 0 ≤ unitClamp u ∧ unitClamp u ≤ 1 := by
  unfold unitClamp
  split
  · exact ⟨le_refl _, zero_le_one⟩
  · next hlow =>
    split
    · exact ⟨zero_le_one, le_refl _⟩
    · next hhigh => exact ⟨not_lt.1 hlow, not_lt.1 hhigh⟩

/-- Nothing in the interval is nearer. -/
theorem unitClamp_nearest (u : K) {t : K} (h0 : 0 ≤ t) (h1 : t ≤ 1) :
    (unitClamp u - u) ^ 2 ≤ (t - u) ^ 2 := by
  unfold unitClamp
  split
  · next hlow => exact pow_le_pow_left₀ (by linarith) (by linarith) 2
  · split
    · next hhigh =>
      have h := pow_le_pow_left₀ (a := u - 1) (b := u - t) (by linarith) (by linarith) 2
      calc (1 - u) ^ 2 = (u - 1) ^ 2 := by ring
        _ ≤ (u - t) ^ 2 := h
        _ = (t - u) ^ 2 := by ring
    · rw [sub_self, zero_pow two_ne_zero]
      exact sq_nonneg _

theorem sqDist_nonneg (p q : K × K) : 0 ≤ sqDist p q :=
  add_nonneg (mul_self_nonneg _) (mul_self_nonneg _)

theorem sqDist_ne_zero (h : a ≠ b) : sqDist b a ≠ 0 := by
  intro hzero
  have hboth := (add_eq_zero_iff_of_nonneg (mul_self_nonneg _) (mul_self_nonneg _)).1 hzero
  exact h (Prod.ext (sub_eq_zero.1 (mul_self_eq_zero.1 hboth.1)).symm
    (sub_eq_zero.1 (mul_self_eq_zero.1 hboth.2)).symm)

/-- An edge of no length is one point. -/
theorem along_of_point (h : sqDist b a = 0) (t : K) : along a b t = a := by
  have hboth := (add_eq_zero_iff_of_nonneg (mul_self_nonneg _) (mul_self_nonneg _)).1 h
  have hx : b.1 - a.1 = 0 := mul_self_eq_zero.1 hboth.1
  have hy : b.2 - a.2 = 0 := mul_self_eq_zero.1 hboth.2
  unfold along
  rw [hx, hy, mul_zero]
  exact Prod.ext (add_zero _) (add_zero _)

theorem nearest_clamp (h : sqDist b a ≠ 0) (p : K × K) :
    Nearest a b p (along a b (unitClamp (foot p a b))) := by
  obtain ⟨hlow, hhigh⟩ := unitClamp_mem (foot p a b)
  refine ⟨⟨_, hlow, hhigh, rfl⟩, ?_⟩
  rintro q' ⟨t, h0, h1, rfl⟩
  rw [sqDist_along h, sqDist_along h]
  have hle := mul_le_mul_of_nonneg_left (unitClamp_nearest (foot p a b) h0 h1)
    (sqDist_nonneg b a)
  linarith

theorem nearest_point (h : sqDist b a = 0) (p : K × K) : Nearest a b p a := by
  refine ⟨⟨0, le_refl 0, zero_le_one, (along_of_point h 0).symm⟩, ?_⟩
  rintro q' ⟨t, -, -, rfl⟩
  rw [along_of_point h]

/-- A point of an edge lies in its box. -/
theorem OnSegment.between {q : K × K} (h : OnSegment a b q) :
    (min a.1 b.1 ≤ q.1 ∧ q.1 ≤ max a.1 b.1) ∧ min a.2 b.2 ≤ q.2 ∧ q.2 ≤ max a.2 b.2 := by
  have hone : ∀ u v t : K, 0 ≤ t → t ≤ 1 →
      min u v ≤ u + t * (v - u) ∧ u + t * (v - u) ≤ max u v := by
    intro u v t h0 h1
    have heq : u + t * (v - u) = (1 - t) * u + t * v := by ring
    have h1' : 0 ≤ 1 - t := sub_nonneg.2 h1
    rw [heq]
    constructor
    · calc min u v = (1 - t) * min u v + t * min u v := by ring
        _ ≤ (1 - t) * u + t * v := add_le_add (mul_le_mul_of_nonneg_left (min_le_left u v) h1')
          (mul_le_mul_of_nonneg_left (min_le_right u v) h0)
    · calc (1 - t) * u + t * v ≤ (1 - t) * max u v + t * max u v :=
            add_le_add (mul_le_mul_of_nonneg_left (le_max_left u v) h1')
              (mul_le_mul_of_nonneg_left (le_max_right u v) h0)
        _ = max u v := by ring
  obtain ⟨t, h0, h1, rfl⟩ := h
  exact ⟨hone _ _ t h0 h1, hone _ _ t h0 h1⟩

theorem onSegment_first (a b : K × K) : OnSegment a b a :=
  ⟨0, le_refl 0, zero_le_one, by unfold along; simp⟩

theorem onSegment_last (a b : K × K) : OnSegment a b b :=
  ⟨1, zero_le_one, le_refl 1, by unfold along; simp⟩

omit [IsStrictOrderedRing K] in
/-- What is clamped below a bound, or above one, was there before. -/
theorem le_of_unitClamp_le {z r : K} (h : unitClamp z ≤ r) (hr : r < 1) : z ≤ r := by
  unfold unitClamp at h
  split at h
  · next hlow => exact le_trans (le_of_lt hlow) h
  · split at h
    · exact absurd h (not_le.2 hr)
    · exact h

omit [IsStrictOrderedRing K] in
theorem le_of_le_unitClamp {z r : K} (h : r ≤ unitClamp z) (hr : 0 < r) : r ≤ z := by
  unfold unitClamp at h
  split at h
  · exact absurd h (not_le.2 hr)
  · split at h
    · next hhigh => exact le_trans h (le_of_lt hhigh)
    · exact h

end Segment
end Mowgli
