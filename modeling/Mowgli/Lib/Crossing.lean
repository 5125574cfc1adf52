import Mowgli.Lib.Polygon

/-!
# Crossing — two segments: where they meet, and how near they come

`meetings` lists the parts of a segment at which an edge may begin or cease to hold its points:
where the two cross, and where the edge ends when they lie on one line. Two segments that do not
cross come nearest at an end of one of them (`near_ends`).
-/

namespace Mowgli
namespace Segment

noncomputable section

/-- The way from one point to another. -/
def way (a b : ℝ × ℝ) : ℝ × ℝ := (b.1 - a.1, b.2 - a.2)

def wedge (u v : ℝ × ℝ) : ℝ := u.1 * v.2 - u.2 * v.1

variable {a b c d p q : ℝ × ℝ} {t u : ℝ}

/-- Cramer's rule: where the lines of two segments meet. -/
theorem meet_iff (h : wedge (way a b) (way c d) ≠ 0) :
    along a b t = along c d u ↔
      t = wedge (way a c) (way c d) / wedge (way a b) (way c d) ∧
        u = wedge (way a c) (way a b) / wedge (way a b) (way c d) := by
  rw [eq_div_iff h, eq_div_iff h]
  constructor
  · intro heq
    have hx := congrArg Prod.fst heq
    have hy := congrArg Prod.snd heq
    unfold along at hx hy
    simp only at hx hy
    unfold wedge way
    simp only
    constructor
    · linear_combination (d.2 - c.2) * hx - (d.1 - c.1) * hy
    · linear_combination (b.2 - a.2) * hx - (b.1 - a.1) * hy
  · intro heq
    obtain ⟨ht, hu⟩ := heq
    unfold wedge way at ht hu h
    simp only at ht hu h
    unfold along
    refine Prod.ext ?_ ?_
    · simp only
      apply mul_left_cancel₀ h
      linear_combination (b.1 - a.1) * ht - (d.1 - c.1) * hu
    · simp only
      apply mul_left_cancel₀ h
      linear_combination (b.2 - a.2) * ht - (d.2 - c.2) * hu

/-- A point of the line through the ends is at the foot of its perpendicular. -/
theorem along_foot (h : sqDist b a ≠ 0) (hline : wedge (way a p) (way a b) = 0) :
    along a b (foot p a b) = p := by
  have hfoot : sqDist b a * foot p a b =
      (p.1 - a.1) * (b.1 - a.1) + (p.2 - a.2) * (b.2 - a.2) := mul_div_cancel₀ _ h
  unfold wedge way at hline
  simp only at hline
  have hlen : sqDist b a = (b.1 - a.1) * (b.1 - a.1) + (b.2 - a.2) * (b.2 - a.2) := rfl
  unfold along
  refine Prod.ext ?_ ?_
  · simp only
    apply mul_left_cancel₀ h
    rw [hlen] at hfoot ⊢
    linear_combination (b.1 - a.1) * hfoot - (b.2 - a.2) * hline
  · simp only
    apply mul_left_cancel₀ h
    rw [hlen] at hfoot ⊢
    linear_combination (b.2 - a.2) * hfoot + (b.1 - a.1) * hline

/-! ## Where an edge begins and ends along a segment -/

/-- The parts of a segment at which it meets an edge, or at which the edge ends on its line. -/
def meetings (a b : ℝ × ℝ) (e : (ℝ × ℝ) × (ℝ × ℝ)) : List ℝ :=
  let D := wedge (way a b) (way e.1 e.2)
  if 0 < |D| then
    let t := wedge (way a e.1) (way e.1 e.2) / D
    let u := wedge (way a e.1) (way a b) / D
    if (0 ≤ t ∧ t ≤ 1) ∧ 0 ≤ u ∧ u ≤ 1 then [t] else []
  else if 0 < sqDist b a ∧ |wedge (way a e.1) (way a b)| ≤ 0 then
    [unitClamp (foot e.1 a b), unitClamp (foot e.2 a b)]
  else []

variable {e : (ℝ × ℝ) × (ℝ × ℝ)}

/-- The three cases: crossing lines, one line, and nothing. -/
theorem mem_meetings : t ∈ meetings a b e ↔
    (wedge (way a b) (way e.1 e.2) ≠ 0 ∧ (0 ≤ t ∧ t ≤ 1) ∧
      ∃ u, 0 ≤ u ∧ u ≤ 1 ∧ along a b t = along e.1 e.2 u) ∨
    (wedge (way a b) (way e.1 e.2) = 0 ∧ sqDist b a ≠ 0 ∧ wedge (way a e.1) (way a b) = 0 ∧
      (t = unitClamp (foot e.1 a b) ∨ t = unitClamp (foot e.2 a b))) := by
  unfold meetings
  simp only [abs_pos, abs_nonpos_iff]
  by_cases hD : wedge (way a b) (way e.1 e.2) = 0
  · have hlen : 0 < sqDist b a ↔ sqDist b a ≠ 0 :=
      ⟨fun h => ne_of_gt h, fun h => lt_of_le_of_ne (sqDist_nonneg b a) (Ne.symm h)⟩
    rw [if_neg (fun h => h hD)]
    by_cases hline : 0 < sqDist b a ∧ wedge (way a e.1) (way a b) = 0
    · rw [if_pos hline]
      simp [hD, hline.2, hlen.1 hline.1]
    · rw [if_neg hline]
      constructor
      · intro h
        cases h
      · intro h
        rcases h with h | h
        · exact absurd hD h.1
        · exact absurd ⟨hlen.2 h.2.1, h.2.2.1⟩ hline
  · rw [if_pos hD]
    by_cases hin : (0 ≤ wedge (way a e.1) (way e.1 e.2) / wedge (way a b) (way e.1 e.2) ∧
        wedge (way a e.1) (way e.1 e.2) / wedge (way a b) (way e.1 e.2) ≤ 1) ∧
      0 ≤ wedge (way a e.1) (way a b) / wedge (way a b) (way e.1 e.2) ∧
        wedge (way a e.1) (way a b) / wedge (way a b) (way e.1 e.2) ≤ 1
    · rw [if_pos hin, List.mem_singleton]
      constructor
      · rintro rfl
        exact Or.inl ⟨hD, hin.1, _, hin.2.1, hin.2.2, (meet_iff hD).2 ⟨rfl, rfl⟩⟩
      · rintro (⟨-, -, u, -, -, hmeet⟩ | h)
        · exact ((meet_iff hD).1 hmeet).1
        · exact absurd h.1 hD
    · rw [if_neg hin]
      constructor
      · intro h
        cases h
      · rintro (⟨-, ht, u, hu0, hu1, hmeet⟩ | h)
        · obtain ⟨rfl, rfl⟩ := (meet_iff hD).1 hmeet
          exact absurd ⟨ht, hu0, hu1⟩ hin
        · exact absurd h.1 hD

theorem meetings_unit (h : t ∈ meetings a b e) : 0 ≤ t ∧ t ≤ 1 := by
  rcases mem_meetings.1 h with ⟨-, ht, -⟩ | ⟨-, -, -, rfl | rfl⟩
  · exact ht
  · exact unitClamp_mem _
  · exact unitClamp_mem _

/-- Both ends of an edge are on the line of a segment that is parallel to it and has one of
them. -/
theorem wedge_last (hD : wedge (way a b) (way c d) = 0) (hline : wedge (way a c) (way a b) = 0) :
    wedge (way a d) (way a b) = 0 := by
  unfold wedge way at *
  simp only at *
  linear_combination hline - hD

/-- Inside the segment, a meeting is a point of the edge. -/
theorem meetings_on (h : t ∈ meetings a b e) (h0 : 0 < t) (h1 : t < 1) :
    OnSegment e.1 e.2 (along a b t) := by
  have hfoot : ∀ z : ℝ, t = unitClamp z → t = z := by
    intro z hz
    unfold unitClamp at hz
    split at hz
    · exact absurd h0 (by rw [hz]; exact lt_irrefl 0)
    · split at hz
      · exact absurd h1 (by rw [hz]; exact lt_irrefl 1)
      · exact hz
  rcases mem_meetings.1 h with ⟨-, -, u, hu0, hu1, hmeet⟩ | ⟨hD, hlen, hline, ht | ht⟩
  · exact ⟨u, hu0, hu1, hmeet⟩
  · rw [hfoot _ ht, along_foot hlen hline]
    exact onSegment_first _ _
  · rw [hfoot _ ht, along_foot hlen (wedge_last hD hline)]
    exact onSegment_last _ _

/-- Between two meetings an edge holds all points of the segment or none. -/
theorem meetings_gap {lo hi s : ℝ} (hlo : 0 ≤ lo) (hhi : hi ≤ 1)
    (hfree : ∀ x ∈ meetings a b e, x ≤ lo ∨ hi ≤ x) (hs : lo < s ∧ s < hi)
    (hon : OnSegment e.1 e.2 (along a b s)) (ht : lo < t ∧ t < hi) :
    OnSegment e.1 e.2 (along a b t) := by
  obtain ⟨u, hu0, hu1, hmeet⟩ := hon
  by_cases hlen : sqDist b a = 0
  · rw [along_of_point hlen] at hmeet ⊢
    exact ⟨u, hu0, hu1, hmeet⟩
  by_cases hD : wedge (way a b) (way e.1 e.2) = 0
  · have hline : wedge (way a e.1) (way a b) = 0 := by
      have hx := congrArg Prod.fst hmeet
      have hy := congrArg Prod.snd hmeet
      unfold along at hx hy
      unfold wedge way at hD ⊢
      simp only at hx hy hD ⊢
      linear_combination (-(b.2 - a.2)) * hx + (b.1 - a.1) * hy + u * hD
    have hfirst := along_foot hlen hline
    have hlast := along_foot hlen (wedge_last hD hline)
    -- a clamped end is outside the gap, so the end is
    have hout : ∀ z, unitClamp z ∈ meetings a b e → z ≤ lo ∨ hi ≤ z := by
      intro z hz
      rcases hfree _ hz with h | h
      · exact Or.inl (le_of_unitClamp_le h (by linarith))
      · exact Or.inr (le_of_le_unitClamp h (by linarith))
    have hx := hout _ (mem_meetings.2 (Or.inr ⟨hD, hlen, hline, Or.inl rfl⟩))
    have hy := hout _ (mem_meetings.2 (Or.inr ⟨hD, hlen, hline, Or.inr rfl⟩))
    generalize foot e.1 a b = x at hfirst hx
    generalize foot e.2 a b = y at hlast hy
    rw [← hfirst, ← hlast, along_along] at hmeet
    have hs' : s = x + u * (y - x) := along_injective hlen hmeet
    -- with a point of the edge inside the gap, its ends are on both sides
    have hsides : (x ≤ lo ∧ hi ≤ y) ∨ (hi ≤ x ∧ y ≤ lo) := by
      have hmix : s = (1 - u) * x + u * y := by rw [hs']; ring
      have hu : 0 ≤ 1 - u := sub_nonneg.2 hu1
      rcases hx with hx | hx
      · rcases hy with hy | hy
        · have h1 := mul_le_mul_of_nonneg_left hx hu
          have h2 := mul_le_mul_of_nonneg_left hy hu0
          exact absurd hs.1 (not_lt.2 (by linarith))
        · exact Or.inl ⟨hx, hy⟩
      · rcases hy with hy | hy
        · exact Or.inr ⟨hx, hy⟩
        · have h1 := mul_le_mul_of_nonneg_left hx hu
          have h2 := mul_le_mul_of_nonneg_left hy hu0
          exact absurd hs.2 (not_lt.2 (by linarith))
    have hd : y - x ≠ 0 := by
      rcases hsides with h | h
      · exact ne_of_gt (by linarith)
      · exact ne_of_lt (by linarith)
    refine ⟨(t - x) / (y - x), ?_, ?_, ?_⟩
    · rcases hsides with h | h
      · exact div_nonneg (by linarith) (by linarith)
      · exact div_nonneg_of_nonpos (by linarith) (by linarith)
    · rcases hsides with h | h
      · rw [div_le_one (by linarith)]
        linarith
      · rw [div_le_one_of_neg (by linarith)]
        linarith
    · conv_rhs => rw [← hfirst, ← hlast, along_along, div_mul_cancel₀ _ hd, add_sub_cancel]
  · have hmem : s ∈ meetings a b e :=
      mem_meetings.2 (Or.inl ⟨hD, ⟨by linarith, by linarith⟩, u, hu0, hu1, hmeet⟩)
    rcases hfree s hmem with h | h
    · exact absurd hs.1 (not_lt.2 h)
    · exact absurd hs.2 (not_lt.2 h)

/-! ## The distance of two segments -/

/-- A way out of the unit square passes its border. -/
theorem exists_border {t u t' u' : ℝ} (ht : 0 ≤ t ∧ t ≤ 1) (hu : 0 ≤ u ∧ u ≤ 1)
    (hout : ¬ ((0 < t' ∧ t' < 1) ∧ 0 < u' ∧ u' < 1)) :
    ∃ s, (0 ≤ s ∧ s ≤ 1) ∧ (0 ≤ t + s * (t' - t) ∧ t + s * (t' - t) ≤ 1) ∧
      (0 ≤ u + s * (u' - u) ∧ u + s * (u' - u) ≤ 1) ∧
      ((t + s * (t' - t) = 0 ∨ t + s * (t' - t) = 1) ∨
        u + s * (u' - u) = 0 ∨ u + s * (u' - u) = 1) := by
  -- the distance to the border, negative outside
  let border (s : ℝ) : ℝ := min (min (t + s * (t' - t)) (1 - (t + s * (t' - t))))
    (min (u + s * (u' - u)) (1 - (u + s * (u' - u))))
  have hcontinuous : Continuous border := by
    show Continuous fun s : ℝ => min (min (t + s * (t' - t)) (1 - (t + s * (t' - t))))
      (min (u + s * (u' - u)) (1 - (u + s * (u' - u))))
    fun_prop
  have hstart : 0 ≤ border 0 := by
    show 0 ≤ min _ _
    simp only [zero_mul, add_zero, le_min_iff, sub_nonneg]
    exact ⟨ht, hu⟩
  have hend : border 1 ≤ 0 := by
    by_contra hpos
    rw [not_le] at hpos
    apply hout
    have hmin : 0 < min (min (t + 1 * (t' - t)) (1 - (t + 1 * (t' - t))))
      (min (u + 1 * (u' - u)) (1 - (u + 1 * (u' - u)))) := hpos
    simp only [one_mul, add_sub_cancel, lt_min_iff, sub_pos] at hmin
    exact hmin
  obtain ⟨s, hs, hzero⟩ := intermediate_value_Icc' zero_le_one hcontinuous.continuousOn
    (show (0 : ℝ) ∈ Set.Icc (border 1) (border 0) from ⟨hend, hstart⟩)
  have hle : 0 ≤ min (min (t + s * (t' - t)) (1 - (t + s * (t' - t))))
    (min (u + s * (u' - u)) (1 - (u + s * (u' - u)))) := le_of_eq hzero.symm
  simp only [le_min_iff, sub_nonneg] at hle
  refine ⟨s, hs, hle.1, hle.2, ?_⟩
  have hchoice : border s = t + s * (t' - t) ∨ border s = 1 - (t + s * (t' - t)) ∨
      border s = u + s * (u' - u) ∨ border s = 1 - (u + s * (u' - u)) := by
    show min _ _ = _ ∨ min _ _ = _ ∨ min _ _ = _ ∨ min _ _ = _
    grind
  rw [hzero] at hchoice
  rcases hchoice with h | h | h | h
  · exact Or.inl (Or.inl h.symm)
  · exact Or.inl (Or.inr (by linarith))
  · exact Or.inr (Or.inl h.symm)
  · exact Or.inr (Or.inr (by linarith))

/-- Along both segments at once the distance is convex. -/
theorem sqDist_convex {t u t' u' s r : ℝ} (h0 : 0 ≤ s) (h1 : s ≤ 1)
    (h : sqDist (along a b t) (along c d u) ≤ r) (h' : sqDist (along a b t') (along c d u') ≤ r) :
    sqDist (along a b (t + s * (t' - t))) (along c d (u + s * (u' - u))) ≤ r := by
  have hone : ∀ x y : ℝ, ((1 - s) * x + s * y) * ((1 - s) * x + s * y) ≤
      (1 - s) * (x * x) + s * (y * y) := by
    intro x y
    have hgap : (1 - s) * (x * x) + s * (y * y) - ((1 - s) * x + s * y) * ((1 - s) * x + s * y) =
        s * (1 - s) * ((x - y) * (x - y)) := by ring
    have hnonneg : 0 ≤ s * (1 - s) * ((x - y) * (x - y)) :=
      mul_nonneg (mul_nonneg h0 (sub_nonneg.2 h1)) (mul_self_nonneg _)
    linarith
  have hx := hone ((along a b t).1 - (along c d u).1) ((along a b t').1 - (along c d u').1)
  have hy := hone ((along a b t).2 - (along c d u).2) ((along a b t').2 - (along c d u').2)
  have hsum : sqDist (along a b (t + s * (t' - t))) (along c d (u + s * (u' - u))) ≤
      (1 - s) * sqDist (along a b t) (along c d u) +
        s * sqDist (along a b t') (along c d u') := by
    unfold sqDist along at *
    simp only at *
    linarith
  have hr1 := mul_le_mul_of_nonneg_left h (sub_nonneg.2 h1)
  have hr2 := mul_le_mul_of_nonneg_left h' h0
  linarith

/-- A parallel way is a multiple. -/
theorem parallel (hlen : sqDist b a ≠ 0) (hD : wedge (way a b) (way c d) = 0) :
    ∃ k, k * (b.1 - a.1) = d.1 - c.1 ∧ k * (b.2 - a.2) = d.2 - c.2 := by
  refine ⟨((d.1 - c.1) * (b.1 - a.1) + (d.2 - c.2) * (b.2 - a.2)) / sqDist b a, ?_, ?_⟩
  · rw [div_mul_eq_mul_div, div_eq_iff hlen]
    unfold wedge way at hD
    unfold sqDist
    linear_combination (b.2 - a.2) * hD
  · rw [div_mul_eq_mul_div, div_eq_iff hlen]
    unfold wedge way at hD
    unfold sqDist
    linear_combination (-(b.1 - a.1)) * hD

/-- Segments that come near cross, or come as near at an end of one of them. -/
theorem near_ends {r : ℝ} (hp : OnSegment a b p) (hq : OnSegment c d q) (hle : sqDist p q ≤ r) :
    (∃ t, (0 < t ∧ t < 1) ∧ t ∈ meetings a b (c, d)) ∨
      (∃ p', (p' = a ∨ p' = b) ∧ ∃ q', OnSegment c d q' ∧ sqDist p' q' ≤ r) ∨
        ∃ q', (q' = c ∨ q' = d) ∧ ∃ p', OnSegment a b p' ∧ sqDist p' q' ≤ r := by
  obtain ⟨t, ht0, ht1, rfl⟩ := hp
  obtain ⟨u, hu0, hu1, rfl⟩ := hq
  -- a place of the parameters outside the square where the lines are as near
  have hfar : (∃ t, (0 < t ∧ t < 1) ∧ t ∈ meetings a b (c, d)) ∨
      ∃ t' u', ¬ ((0 < t' ∧ t' < 1) ∧ 0 < u' ∧ u' < 1) ∧
        sqDist (along a b t') (along c d u') ≤ r := by
    by_cases hD : wedge (way a b) (way c d) = 0
    · by_cases hlen : sqDist b a = 0
      · refine Or.inr ⟨1, u, fun h => absurd h.1.2 (lt_irrefl 1), ?_⟩
        rw [along_of_point hlen] at hle ⊢
        exact hle
      · obtain ⟨k, hkx, hky⟩ := parallel hlen hD
        refine Or.inr ⟨t + k, u + 1, fun h => absurd h.2.2 (by linarith), ?_⟩
        have hsame : sqDist (along a b (t + k)) (along c d (u + 1)) =
            sqDist (along a b t) (along c d u) := by
          unfold sqDist along
          simp only [add_mul, hkx, hky, one_mul]
          ring
        rw [hsame]
        exact hle
    · have hmeet := (meet_iff hD).2 ⟨rfl, rfl⟩
      generalize wedge (way a c) (way c d) / wedge (way a b) (way c d) = t' at hmeet
      generalize wedge (way a c) (way a b) / wedge (way a b) (way c d) = u' at hmeet
      by_cases hin : (0 < t' ∧ t' < 1) ∧ 0 < u' ∧ u' < 1
      · refine Or.inl ⟨t', hin.1, mem_meetings.2 (Or.inl ⟨hD, ?_, u', ?_, ?_, hmeet⟩)⟩
        · exact ⟨le_of_lt hin.1.1, le_of_lt hin.1.2⟩
        · exact le_of_lt hin.2.1
        · exact le_of_lt hin.2.2
      · refine Or.inr ⟨t', u', hin, ?_⟩
        have hzero : sqDist (along c d u') (along c d u') = 0 := by
          unfold sqDist
          ring
        rw [hmeet, hzero]
        exact le_trans (sqDist_nonneg _ _) hle
  rcases hfar with h | ⟨t', u', hout, hle'⟩
  · exact Or.inl h
  · obtain ⟨s, ⟨hs0, hs1⟩, ht, hu, hborder⟩ := exists_border ⟨ht0, ht1⟩ ⟨hu0, hu1⟩ hout
    have hnear := sqDist_convex hs0 hs1 hle hle'
    generalize t + s * (t' - t) = v at *
    generalize u + s * (u' - u) = w at *
    have hstart : ∀ x y : ℝ × ℝ, along x y 0 = x := by
      intro x y
      unfold along
      simp
    have hend : ∀ x y : ℝ × ℝ, along x y 1 = y := by
      intro x y
      unfold along
      simp
    rcases hborder with (rfl | rfl) | (rfl | rfl)
    · exact Or.inr (Or.inl ⟨_, Or.inl (hstart a b), _, ⟨w, hu.1, hu.2, rfl⟩, hnear⟩)
    · exact Or.inr (Or.inl ⟨_, Or.inr (hend a b), _, ⟨w, hu.1, hu.2, rfl⟩, hnear⟩)
    · exact Or.inr (Or.inr ⟨_, Or.inl (hstart c d), _, ⟨v, ht.1, ht.2, rfl⟩, hnear⟩)
    · exact Or.inr (Or.inr ⟨_, Or.inr (hend c d), _, ⟨v, ht.1, ht.2, rfl⟩, hnear⟩)

end

end Segment
end Mowgli
