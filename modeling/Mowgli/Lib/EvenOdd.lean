import Mowgli.Lib.Polygon

/-!
# EvenOdd — the rule off the boundary

Near a point that is on no edge **the rule is constant** (`oddAt_eventually`). A vertex on the row
of the point changes two edges at once: an edge is compared with the sides of its ends on the row
to the right of the point, and around the ring those cancel. So along a segment the rule changes
only where the ring is met (`oddAt_same`), and the region of a ring is closed.
-/

namespace Mowgli
namespace Polygon

open Segment Filter Topology

noncomputable section

/-- The vertex is above the row. -/
def above (y : ℝ) (v : ℝ × ℝ) : Bool := decide (y < v.2)

/-- The vertex is on the row of the point and to its right, and above the row of another point. -/
def beside (p q v : ℝ × ℝ) : Bool := above q.2 v && decide (v.2 = p.2 ∧ p.1 < v.1)

variable {p : ℝ × ℝ} {e : (ℝ × ℝ) × (ℝ × ℝ)}

theorem spans_eq (y : ℝ) (e : (ℝ × ℝ) × (ℝ × ℝ)) : spans y e = (above y e.1 != above y e.2) := rfl

/-- A vertex that is not on the row stays on its side of it. -/
theorem above_eventually {v : ℝ × ℝ} (h : v.2 ≠ p.2) : ∀ᶠ q in 𝓝 p, above q.2 v = above p.2 v := by
  rcases lt_or_gt_of_ne h with hlt | hgt
  · filter_upwards [continuous_snd.continuousAt.eventually (lt_mem_nhds hlt)] with q hq
    simp [above, not_lt.2 (le_of_lt hlt), not_lt.2 (le_of_lt hq)]
  · filter_upwards [continuous_snd.continuousAt.eventually (gt_mem_nhds hgt)] with q hq
    simp [above, hgt, hq]

/-- Near the point the edge is to the right of it, ends on the row included. -/
structure OnRight (p : ℝ × ℝ) (e : (ℝ × ℝ) × (ℝ × ℝ)) : Prop where
  ends : ∀ v, v = e.1 ∨ v = e.2 → v.2 = p.2 → p.1 < v.1
  near : ∀ᶠ q in 𝓝 p, crosses q e = spans q.2 e

/-- Near the point no ray meets the edge. -/
structure OnLeft (p : ℝ × ℝ) (e : (ℝ × ℝ) × (ℝ × ℝ)) : Prop where
  ends : ∀ v, v = e.1 ∨ v = e.2 → v.2 = p.2 → v.1 ≤ p.1
  near : ∀ᶠ q in 𝓝 p, crosses q e = false

/-- Between the ends of a level edge. -/
theorem onSegment_level (hlevel : e.1.2 = e.2.2) (hrow : e.1.2 = p.2)
    (h : (e.1.1 ≤ p.1 ∧ p.1 < e.2.1) ∨ (e.2.1 ≤ p.1 ∧ p.1 < e.1.1)) : OnSegment e.1 e.2 p := by
  have hd : e.2.1 - e.1.1 ≠ 0 := by
    rcases h with h | h
    · exact ne_of_gt (by linarith)
    · exact ne_of_lt (by linarith)
  refine ⟨(p.1 - e.1.1) / (e.2.1 - e.1.1), ?_, ?_, ?_⟩
  · rcases h with h | h
    · exact div_nonneg (by linarith) (by linarith)
    · exact div_nonneg_of_nonpos (by linarith) (by linarith)
  · rcases h with h | h
    · rw [div_le_one (by linarith)]
      linarith
    · rw [div_le_one_of_neg (by linarith)]
      linarith
  · unfold along
    refine Prod.ext ?_ ?_
    · simp only
      rw [div_mul_cancel₀ _ hd]
      ring
    · simp only
      rw [← hlevel, hrow]
      ring

/-- A level edge is met by no ray. -/
theorem crosses_level (hlevel : e.1.2 = e.2.2) (q : ℝ × ℝ) : crosses q e = false := by
  unfold crosses spans
  rw [hlevel]
  simp

/-- A point that is not on an edge is on one side of it. -/
theorem side_of_edge (h : ¬ OnSegment e.1 e.2 p) : OnRight p e ∨ OnLeft p e := by
  by_cases hlevel : e.1.2 = e.2.2
  · have hspans : ∀ y, spans y e = false := by
      intro y
      unfold spans
      rw [hlevel]
      simp
    by_cases hrow : e.1.2 = p.2
    · by_cases hfirst : p.1 < e.1.1
      · refine Or.inl ⟨?_, Eventually.of_forall fun q => ?_⟩
        · rintro v (rfl | rfl) _
          · exact hfirst
          · by_contra hle
            exact h (onSegment_level hlevel hrow (Or.inr ⟨not_lt.1 hle, hfirst⟩))
        · rw [crosses_level hlevel, hspans]
      · refine Or.inr ⟨?_, Eventually.of_forall fun q => crosses_level hlevel q⟩
        rintro v (rfl | rfl) _
        · exact not_lt.1 hfirst
        · by_contra hlt
          exact h (onSegment_level hlevel hrow (Or.inl ⟨not_lt.1 hfirst, not_le.1 hlt⟩))
    · refine Or.inr ⟨?_, Eventually.of_forall fun q => crosses_level hlevel q⟩
      rintro v (rfl | rfl) hv
      · exact absurd hv hrow
      · exact absurd (hlevel.trans hv) hrow
  · have hcontinuous : Continuous fun q : ℝ × ℝ => crossX q.2 e := by
      unfold crossX
      fun_prop
    -- an end on the row is where the edge meets it
    have hend : ∀ v, v = e.1 ∨ v = e.2 → v.2 = p.2 → crossX p.2 e = v.1 := by
      have hd : e.2.2 - e.1.2 ≠ 0 := sub_ne_zero.2 (Ne.symm hlevel)
      rintro v (rfl | rfl) hv
      · unfold crossX
        rw [hv, sub_self, zero_mul, zero_div, add_zero]
      · unfold crossX
        rw [← hv, mul_div_assoc, mul_div_cancel₀ _ hd]
        ring
    rcases lt_trichotomy p.1 (crossX p.2 e) with hlt | heq | hgt
    · refine Or.inl ⟨?_, ?_⟩
      · intro v hv hrow
        rw [← hend v hv hrow]
        exact hlt
      · filter_upwards [(continuous_fst.tendsto p).eventually_lt (hcontinuous.tendsto p) hlt]
          with q hq
        unfold crosses
        rw [decide_eq_true hq, Bool.and_true]
    · -- the line of the edge passes through the point, so the edge is above the row or below
      have hspans : spans p.2 e = false := by
        by_contra htrue
        apply h
        have hon := onSegment_of_spans (Bool.not_eq_false _ ▸ htrue)
        rw [← heq] at hon
        exact hon
      have hoff : ∀ v, v = e.1 ∨ v = e.2 → v.2 ≠ p.2 := by
        intro v hv hrow
        apply h
        have hpoint : p = v := Prod.ext (heq.trans (hend v hv hrow)) hrow.symm
        rw [hpoint]
        rcases hv with rfl | rfl
        · exact onSegment_first _ _
        · exact onSegment_last _ _
      refine Or.inr ⟨fun v hv hrow => absurd hrow (hoff v hv), ?_⟩
      filter_upwards [above_eventually (hoff e.1 (Or.inl rfl)),
        above_eventually (hoff e.2 (Or.inr rfl))] with q h1 h2
      unfold crosses
      rw [spans_eq, h1, h2, ← spans_eq, hspans, Bool.false_and]
    · refine Or.inr ⟨?_, ?_⟩
      · intro v hv hrow
        rw [← hend v hv hrow]
        exact le_of_lt hgt
      · filter_upwards [(hcontinuous.tendsto p).eventually_lt (continuous_fst.tendsto p) hgt]
          with q hq
        unfold crosses
        rw [decide_eq_false (not_lt.2 (le_of_lt hq)), Bool.and_false]

/-- What a ray meets, less what its ends on the row account for. -/
def settled (p q : ℝ × ℝ) (e : (ℝ × ℝ) × (ℝ × ℝ)) : Bool :=
  crosses q e != (beside p q e.2 != beside p q e.1)

theorem settled_eventually (h : ¬ OnSegment e.1 e.2 p) :
    ∀ᶠ q in 𝓝 p, settled p q e = settled p p e := by
  rcases side_of_edge h with hside | hside
  · -- each end cancels its own term when it is on the row, and stays where it is otherwise
    have hend : ∀ v, v = e.1 ∨ v = e.2 →
        ∀ᶠ q in 𝓝 p, (above q.2 v != beside p q v) = (above p.2 v != beside p p v) := by
      intro v hv
      unfold beside
      by_cases hrow : v.2 = p.2
      · refine Eventually.of_forall fun q => ?_
        rw [decide_eq_true (⟨hrow, hside.ends v hv hrow⟩ : v.2 = p.2 ∧ p.1 < v.1)]
        simp
      · filter_upwards [above_eventually hrow] with q hq
        rw [decide_eq_false (fun h => hrow h.1), hq, Bool.and_false]
    filter_upwards [hside.near, hend e.1 (Or.inl rfl), hend e.2 (Or.inr rfl)] with q hq h1 h2
    have hp : crosses p e = spans p.2 e := hside.near.self_of_nhds
    have hsplit : ∀ a b c d : Bool, ((a != b) != (d != c)) = ((a != c) != (b != d)) := by decide
    unfold settled
    rw [hq, hp, spans_eq, spans_eq, hsplit, h1, h2, ← hsplit]
  · have hend : ∀ q v, v = e.1 ∨ v = e.2 → beside p q v = false := by
      intro q v hv
      unfold beside
      rw [decide_eq_false (fun h => absurd h.2 (not_lt.2 (hside.ends v hv h.1))), Bool.and_false]
    filter_upwards [hside.near] with q hq
    have hp : crosses p e = false := hside.near.self_of_nhds
    unfold settled
    rw [hq, hp, hend q _ (Or.inl rfl), hend q _ (Or.inr rfl), hend p _ (Or.inl rfl),
      hend p _ (Or.inr rfl)]

/-- Around the ring the terms of the vertices cancel. -/
theorem oddAt_settled (ring : List (ℝ × ℝ)) (p q : ℝ × ℝ) :
    oddAt ring q = Parity.odd ((edges ring).countP (settled p q)) := by
  have hclosed := Parity.changes_closed (beside p q) ring
  have hsum := Parity.odd_countP_bne (crosses q)
    (fun e : (ℝ × ℝ) × (ℝ × ℝ) => beside p q e.2 != beside p q e.1) (edges ring)
  unfold oddAt
  unfold edges at hsum ⊢
  rw [hclosed, Bool.bne_false] at hsum
  exact hsum.symm

/-- Off the boundary the rule is locally constant. -/
theorem oddAt_eventually {ring : List (ℝ × ℝ)} (h : ¬ OnRing ring p) :
    ∀ᶠ q in 𝓝 p, oddAt ring q = oddAt ring p := by
  have hall : ∀ᶠ q in 𝓝 p, ∀ e ∈ {e | e ∈ edges ring}, settled p q e = settled p p e := by
    rw [eventually_all_finite (List.finite_toSet (edges ring))]
    intro e he
    exact settled_eventually fun hon => h ⟨e, he, hon⟩
  filter_upwards [hall] with q hq
  rw [oddAt_settled ring p q, oddAt_settled ring p p]
  congr 1
  apply List.countP_congr
  intro e he
  rw [hq e he]

/-! ## Along a segment -/

/-- The rule is the same at two points of a segment with no boundary between them. -/
theorem oddAt_same {ring : List (ℝ × ℝ)} {a b : ℝ × ℝ} {s t : ℝ}
    (h : ∀ w ∈ Set.uIcc s t, ¬ OnRing ring (along a b w)) :
    oddAt ring (along a b s) = oddAt ring (along a b t) := by
  have hcontinuous : ContinuousOn (fun w => oddAt ring (along a b w)) (Set.uIcc s t) := by
    intro w hw
    apply ContinuousAt.continuousWithinAt
    have hnear := (continuous_along a b).continuousAt.eventually (oddAt_eventually (h w hw))
    exact continuousAt_const.congr (hnear.mono fun x hx => hx.symm)
  exact isPreconnected_uIcc.constant hcontinuous Set.left_mem_uIcc Set.right_mem_uIcc

theorem isClosed_segment (a b : ℝ × ℝ) : IsClosed {p | OnSegment a b p} := by
  have himage : {p | OnSegment a b p} = Set.image (along a b) (Set.Icc 0 1) := by
    ext p
    constructor
    · rintro ⟨t, h0, h1, rfl⟩
      exact ⟨t, ⟨h0, h1⟩, rfl⟩
    · rintro ⟨t, ⟨h0, h1⟩, rfl⟩
      exact ⟨t, h0, h1, rfl⟩
  rw [himage]
  exact (isCompact_Icc.image (continuous_along a b)).isClosed

theorem isClosed_onRing (ring : List (ℝ × ℝ)) : IsClosed {p | OnRing ring p} := by
  have hunion : {p | OnRing ring p} = ⋃ e ∈ {e | e ∈ edges ring}, {p | OnSegment e.1 e.2 p} := by
    ext p
    simp only [Set.mem_iUnion, Set.mem_ofPred_eq, exists_prop, OnRing]
  rw [hunion]
  exact (List.finite_toSet (edges ring)).isClosed_biUnion fun e _ => isClosed_segment e.1 e.2

theorem isClosed_region (ring : List (ℝ × ℝ)) : IsClosed {p | Region ring p} := by
  rw [← isOpen_compl_iff, isOpen_iff_mem_nhds]
  intro p hp
  have hoff : ¬ OnRing ring p := fun hon => hp (Or.inl hon)
  have heven : oddAt ring p = false := by
    rw [← Bool.not_eq_true]
    exact fun hodd => hp (Or.inr hodd)
  filter_upwards [(isClosed_onRing ring).isOpen_compl.mem_nhds hoff, oddAt_eventually hoff]
    with q hq hsame hregion
  rcases hregion with hon | hodd
  · exact hq hon
  · rw [hsame, heven] at hodd
    cases hodd

end

end Polygon
end Mowgli
