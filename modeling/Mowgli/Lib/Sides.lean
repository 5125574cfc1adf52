import Mathlib.Tactic.FieldSimp
import Mowgli.Lib.Segment

/-!
# Sides — segments compared by which side their ends are on

`cross a b c` is positive when `c` is on one side of the line from `a` to `b`, negative on the
other. Two segments have a point in common exactly when **each has its ends on both sides of the
other, or an end of one is on the other** (`segments_meet_iff`), whether or not they have a length.

Two segments that share an end and more than that fold back: an end of one is on the other
(`fold`).
-/

namespace Mowgli
namespace Segment

variable {K : Type} [Field K]

def cross (a b c : K × K) : K := (b.1 - a.1) * (c.2 - a.2) - (b.2 - a.2) * (c.1 - a.1)

theorem cross_rotate (a b c : K × K) : cross b c a = cross a b c := by
  unfold cross
  ring

theorem cross_along (a b c d : K × K) (t : K) :
    cross a b (along c d t) = (1 - t) * cross a b c + t * cross a b d := by
  unfold cross along
  ring

theorem cross_self (a b : K × K) (t : K) : cross a b (along a b t) = 0 := by
  unfold cross along
  ring

variable {a b c d p : K × K}

/-- Where two lines that are not parallel meet. -/
theorem along_eq_along (h : cross a b c ≠ cross a b d) :
    along a b (cross c d a / (cross c d a - cross c d b)) =
      along c d (cross a b c / (cross a b c - cross a b d)) := by
  have hparallel : cross c d a - cross c d b = -(cross a b c - cross a b d) := by
    unfold cross
    ring
  have hne : cross a b c - cross a b d ≠ 0 := sub_ne_zero.2 h
  rw [hparallel]
  unfold along
  refine Prod.ext ?_ ?_
  · field_simp
    unfold cross
    ring
  · field_simp
    unfold cross
    ring

variable [LinearOrder K]

/-- A point on the line and in the box. -/
def Between (a b p : K × K) : Prop :=
  cross a b p = 0 ∧ min a.1 b.1 ≤ p.1 ∧ p.1 ≤ max a.1 b.1 ∧ min a.2 b.2 ≤ p.2 ∧
    p.2 ≤ max a.2 b.2

/-- The ends of `c d` are on two sides of `a b`. -/
def Parts (a b c d : K × K) : Prop :=
  0 < cross a b c ∧ cross a b d < 0 ∨ cross a b c < 0 ∧ 0 < cross a b d

variable [IsStrictOrderedRing K]

/-- How far along a row a number is. -/
theorem part_of_between {u v z : K} (hne : u ≠ v) (hlow : min u v ≤ z) (hhigh : z ≤ max u v) :
    0 ≤ (z - u) / (v - u) ∧ (z - u) / (v - u) ≤ 1 := by
  rcases lt_or_gt_of_ne hne with huv | hvu
  · rw [min_eq_left huv.le] at hlow
    rw [max_eq_right huv.le] at hhigh
    have hpos : 0 < v - u := sub_pos.2 huv
    exact ⟨div_nonneg (sub_nonneg.2 hlow) hpos.le, (div_le_one hpos).2 (by linarith)⟩
  · rw [min_eq_right hvu.le] at hlow
    rw [max_eq_left hvu.le] at hhigh
    have hneg : v - u < 0 := sub_neg.2 hvu
    exact ⟨div_nonneg_of_nonpos (by linarith) hneg.le, (div_le_one_of_neg hneg).2 (by linarith)⟩

theorem between_iff : Between a b p ↔ OnSegment a b p := by
  constructor
  · rintro ⟨hline, hx, hx', hy, hy'⟩
    unfold cross at hline
    by_cases h1 : a.1 = b.1
    · have hpx : p.1 = a.1 := by
        rw [h1, min_self] at hx
        rw [h1, max_self] at hx'
        exact (le_antisymm hx' hx).trans h1.symm
      by_cases h2 : a.2 = b.2
      · have hpy : p.2 = a.2 := by
          rw [h2, min_self] at hy
          rw [h2, max_self] at hy'
          exact (le_antisymm hy' hy).trans h2.symm
        rw [show p = a from Prod.ext hpx hpy]
        exact onSegment_first a b
      · obtain ⟨h0, h1'⟩ := part_of_between h2 hy hy'
        refine ⟨_, h0, h1', Prod.ext ?_ ?_⟩
        · simp [along, h1, hpx]
        · have hne : b.2 - a.2 ≠ 0 := sub_ne_zero.2 (Ne.symm h2)
          simp only [along]
          field_simp
          ring
    · obtain ⟨h0, h1'⟩ := part_of_between h1 hx hx'
      have hne : b.1 - a.1 ≠ 0 := sub_ne_zero.2 (Ne.symm h1)
      refine ⟨_, h0, h1', Prod.ext ?_ ?_⟩
      · simp only [along]
        field_simp
        ring
      · simp only [along]
        field_simp
        linear_combination hline
  · intro h
    obtain ⟨⟨hx, hx'⟩, hy, hy'⟩ := h.between
    obtain ⟨t, -, -, rfl⟩ := h
    exact ⟨cross_self a b t, hx, hx', hy, hy'⟩

/-- Something of a segment on a line, and not all of it: one end is on the line, or the ends are on
    its two sides. -/
theorem ends_of_cross {t : K} (h0 : 0 ≤ t) (h1 : t ≤ 1) (h : cross a b (along c d t) = 0)
    (hne : ¬(cross a b c = 0 ∧ cross a b d = 0)) : t = 0 ∨ t = 1 ∨ Parts a b c d := by
  rw [cross_along] at h
  by_cases ht0 : t = 0
  · exact .inl ht0
  by_cases ht1 : t = 1
  · exact .inr (.inl ht1)
  right
  right
  have hpos : 0 < t := lt_of_le_of_ne h0 (Ne.symm ht0)
  have hpos' : 0 < 1 - t := sub_pos.2 (lt_of_le_of_ne h1 ht1)
  rcases lt_trichotomy (cross a b c) 0 with hc | hc | hc
  · right
    refine ⟨hc, ?_⟩
    by_contra hd
    nlinarith [mul_neg_of_pos_of_neg hpos' hc, mul_nonpos_of_nonneg_of_nonpos h0 (not_lt.1 hd)]
  · exfalso
    rw [hc, mul_zero, zero_add] at h
    exact hne ⟨hc, (mul_eq_zero.1 h).resolve_left ht0⟩
  · left
    refine ⟨hc, ?_⟩
    by_contra hd
    nlinarith [mul_pos hpos' hc, mul_nonneg h0 (not_lt.1 hd)]

/-! ## On one line -/

omit [LinearOrder K] [IsStrictOrderedRing K] in
theorem exists_along (h : a ≠ b) (hc : cross a b c = 0) : ∃ t, c = along a b t := by
  unfold cross at hc
  by_cases h1 : b.1 - a.1 = 0
  · have h2 : b.2 - a.2 ≠ 0 := fun h2 => h (Prod.ext (sub_eq_zero.1 h1).symm (sub_eq_zero.1 h2).symm)
    rw [h1, zero_mul, zero_sub, neg_eq_zero, mul_eq_zero] at hc
    have hcx : c.1 - a.1 = 0 := hc.resolve_left h2
    refine ⟨(c.2 - a.2) / (b.2 - a.2), Prod.ext ?_ ?_⟩
    · simp only [along]
      rw [h1, mul_zero, add_zero]
      exact sub_eq_zero.1 hcx
    · simp only [along]
      field_simp
      ring
  · refine ⟨(c.1 - a.1) / (b.1 - a.1), Prod.ext ?_ ?_⟩
    · simp only [along]
      field_simp
      ring
    · simp only [along]
      field_simp
      linear_combination hc

/-- An end of a row that begins before it and ends behind it. -/
theorem first_between {x y : K} (hx : x < 0) (hy : 1 < y) :
    OnSegment (along a b x) (along a b y) a := by
  have hpos : 0 < y - x := by linarith
  refine ⟨-x / (y - x), div_nonneg (by linarith) hpos.le, (div_le_one hpos).2 (by linarith), ?_⟩
  have hzero : x + -x / (y - x) * (y - x) = 0 := by
    field_simp
    ring
  rw [along_along, hzero, along_zero]

theorem last_between {x y : K} (hx : x < 0) (hy : 1 < y) :
    OnSegment (along a b y) (along a b x) a := by
  have hpos : 0 < y - x := by linarith
  refine ⟨y / (y - x), div_nonneg (by linarith) hpos.le, (div_le_one hpos).2 (by linarith), ?_⟩
  have hzero : y + y / (y - x) * (x - y) = 0 := by
    field_simp
    ring
  rw [along_along, hzero, along_zero]

/-- Segments on one line that meet: an end of one is on the other. -/
theorem ends_of_line (hc : cross a b c = 0) (hd : cross a b d = 0) (hp : OnSegment a b p)
    (hp' : OnSegment c d p) :
    OnSegment a b c ∨ OnSegment a b d ∨ OnSegment c d a ∨ OnSegment c d b := by
  by_cases hab : a = b
  · subst hab
    right
    right
    left
    obtain ⟨s, -, -, rfl⟩ := hp
    rwa [along_of_point (by unfold sqDist; ring) s] at hp'
  obtain ⟨x, rfl⟩ := exists_along hab hc
  obtain ⟨y, rfl⟩ := exists_along hab hd
  obtain ⟨s, hs0, hs1, rfl⟩ := hp
  obtain ⟨t, ht0, ht1, he⟩ := hp'
  rw [along_along] at he
  have hs := along_injective (sqDist_ne_zero hab) he
  by_cases hx : 0 ≤ x ∧ x ≤ 1
  · exact .inl ⟨x, hx.1, hx.2, rfl⟩
  by_cases hy : 0 ≤ y ∧ y ≤ 1
  · exact .inr (.inl ⟨y, hy.1, hy.2, rfl⟩)
  right
  right
  left
  -- Both ends are outside, so the common point leaves them on two sides.
  rcases lt_or_ge x 0 with hx0 | hx0
  · rcases lt_or_ge y 0 with hy0 | hy0
    · nlinarith [mul_nonneg ht0 (neg_nonneg.2 hy0.le),
        mul_nonneg (sub_nonneg.2 ht1) (neg_nonneg.2 hx0.le)]
    · exact first_between hx0 (not_le.1 fun h => hy ⟨hy0, h⟩)
  · have hx1 : 1 < x := not_le.1 fun h => hx ⟨hx0, h⟩
    rcases lt_or_ge y 0 with hy0 | hy0
    · exact last_between hy0 hx1
    · have hy1 : 1 < y := not_le.1 fun h => hy ⟨hy0, h⟩
      nlinarith [mul_nonneg ht0 (sub_nonneg.2 hy1.le),
        mul_nonneg (sub_nonneg.2 ht1) (sub_nonneg.2 hx1.le)]

/-! ## Two segments -/

theorem part_of_parts (h : Parts a b c d) :
    0 ≤ cross a b c / (cross a b c - cross a b d) ∧
      cross a b c / (cross a b c - cross a b d) ≤ 1 := by
  rcases h with ⟨hc, hd⟩ | ⟨hc, hd⟩
  · have hpos : 0 < cross a b c - cross a b d := by linarith
    exact ⟨div_nonneg hc.le hpos.le, (div_le_one hpos).2 (by linarith)⟩
  · have hneg : cross a b c - cross a b d < 0 := by linarith
    exact ⟨div_nonneg_of_nonpos hc.le hneg.le, (div_le_one_of_neg hneg).2 (by linarith)⟩

omit [IsStrictOrderedRing K] in
theorem Parts.ne (h : Parts a b c d) : cross a b c ≠ cross a b d := by
  rcases h with ⟨hc, hd⟩ | ⟨hc, hd⟩
  · exact (hd.trans hc).ne'
  · exact (hc.trans hd).ne

theorem segments_meet_iff : (∃ p, OnSegment a b p ∧ OnSegment c d p) ↔
    Parts a b c d ∧ Parts c d a b ∨ OnSegment a b c ∨ OnSegment a b d ∨ OnSegment c d a ∨
      OnSegment c d b := by
  constructor
  · rintro ⟨p, hp, hp'⟩
    by_cases hline : cross a b c = 0 ∧ cross a b d = 0
    · exact .inr (ends_of_line hline.1 hline.2 hp hp')
    obtain ⟨s, hs0, hs1, rfl⟩ := id hp
    obtain ⟨t, ht0, ht1, he⟩ := id hp'
    have hzero : cross a b (along c d t) = 0 := by rw [← he, cross_self]
    rcases ends_of_cross ht0 ht1 hzero hline with rfl | rfl | hparts
    · rw [he, along_zero] at hp
      exact .inr (.inl hp)
    · rw [he, along_one] at hp
      exact .inr (.inr (.inl hp))
    by_cases hline' : cross c d a = 0 ∧ cross c d b = 0
    · have heq : cross a b d - cross a b c = cross c d a - cross c d b := by
        unfold cross
        ring
      rw [hline'.1, hline'.2, sub_zero] at heq
      exact absurd (sub_eq_zero.1 heq).symm hparts.ne
    have hzero' : cross c d (along a b s) = 0 := by rw [he, cross_self]
    rcases ends_of_cross hs0 hs1 hzero' hline' with rfl | rfl | hparts'
    · rw [along_zero] at hp'
      exact .inr (.inr (.inr (.inl hp')))
    · rw [along_one] at hp'
      exact .inr (.inr (.inr (.inr hp')))
    · exact .inl ⟨hparts, hparts'⟩
  · rintro (⟨hparts, hparts'⟩ | h | h | h | h)
    · obtain ⟨hs0, hs1⟩ := part_of_parts hparts'
      obtain ⟨ht0, ht1⟩ := part_of_parts hparts
      exact ⟨_, ⟨_, hs0, hs1, rfl⟩, _, ht0, ht1, along_eq_along hparts.ne⟩
    · exact ⟨c, h, onSegment_first c d⟩
    · exact ⟨d, h, onSegment_last c d⟩
    · exact ⟨a, onSegment_first a b, h⟩
    · exact ⟨b, onSegment_last a b, h⟩

/-- Segments that share an end and another point: an end of one is on the other. -/
theorem fold (hp : OnSegment a b p) (hp' : OnSegment b c p) (hne : p ≠ b) :
    OnSegment b c a ∨ OnSegment a b c := by
  obtain ⟨s, hs0, hs1, rfl⟩ := hp
  obtain ⟨t, ht0, ht1, he⟩ := hp'
  have hx : a.1 + s * (b.1 - a.1) = b.1 + t * (c.1 - b.1) := congrArg Prod.fst he
  have hy : a.2 + s * (b.2 - a.2) = b.2 + t * (c.2 - b.2) := congrArg Prod.snd he
  have hs : s ≠ 1 := by
    rintro rfl
    exact hne (along_one a b)
  have ht : t ≠ 0 := by
    rintro rfl
    exact hne (he.trans (along_zero b c))
  have hspos : 0 < 1 - s := sub_pos.2 (lt_of_le_of_ne hs1 hs)
  have htpos : 0 < t := lt_of_le_of_ne ht0 (Ne.symm ht)
  rcases le_total t (1 - s) with hle | hle
  · left
    refine ⟨t / (1 - s), div_nonneg ht0 hspos.le, (div_le_one hspos).2 hle, Prod.ext ?_ ?_⟩
    · simp only [along]
      field_simp
      linear_combination hx
    · simp only [along]
      field_simp
      linear_combination hy
  · right
    refine ⟨1 - (1 - s) / t, sub_nonneg.2 ((div_le_one htpos).2 hle),
      sub_le_self _ (div_nonneg hspos.le ht0), Prod.ext ?_ ?_⟩
    · simp only [along]
      field_simp
      linear_combination -hx
    · simp only [along]
      field_simp
      linear_combination -hy

end Segment
end Mowgli
