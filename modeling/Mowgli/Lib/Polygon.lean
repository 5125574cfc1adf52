import Mowgli.Lib.Parity
import Mowgli.Lib.Segment
import Mathlib.Analysis.Real.Sqrt
import Mathlib.Topology.Instances.Real.Lemmas

/-!
# Polygon — the even-odd rule, and the distance to an edge

A ring is a closed walk of points of the plane, whatever it crosses, touches or repeats. A ray to
the right meets the edges that span the row of its start in the half-open sense, and `oddAt` says
whether it meets an odd number of them. Around the ring a row is left as often as it is entered, so
**what is odd lies in the box of the ring** (`box_of_oddAt`), as what is near an edge lies in the
box of the edge.
-/

namespace Mowgli
namespace Polygon

open Segment

/-- The edges of a ring, with the closing one first. -/
def edges {α : Type} (ring : List α) : List (α × α) := (ring.getLast?.toList ++ ring).zip ring

theorem mem_of_edges {α : Type} {ring : List α} {e : α × α} (h : e ∈ edges ring) :
    e.1 ∈ ring ∧ e.2 ∈ ring := by
  have hzip := List.of_mem_zip (show (e.1, e.2) ∈ (ring.getLast?.toList ++ ring).zip ring from h)
  refine ⟨?_, hzip.2⟩
  rcases List.mem_append.1 hzip.1 with hlast | hmem
  · exact List.mem_of_getLast? (Option.mem_toList.1 hlast)
  · exact hmem

noncomputable section

/-- The edge has one end above the row and the other on it or below. -/
def spans (y : ℝ) (e : (ℝ × ℝ) × (ℝ × ℝ)) : Bool := decide (y < e.1.2) != decide (y < e.2.2)

/-- Where the line of the edge meets the row. -/
def crossX (y : ℝ) (e : (ℝ × ℝ) × (ℝ × ℝ)) : ℝ :=
  e.1.1 + (y - e.1.2) * (e.2.1 - e.1.1) / (e.2.2 - e.1.2)

def crosses (p : ℝ × ℝ) (e : (ℝ × ℝ) × (ℝ × ℝ)) : Bool :=
  spans p.2 e && decide (p.1 < crossX p.2 e)

/-- The even-odd rule. -/
def oddAt (ring : List (ℝ × ℝ)) (p : ℝ × ℝ) : Bool :=
  Parity.odd ((edges ring).countP (crosses p))

/-- The point is on some edge. -/
def OnRing (ring : List (ℝ × ℝ)) (p : ℝ × ℝ) : Prop := ∃ e ∈ edges ring, OnSegment e.1 e.2 p

/-- The closed region of a ring. -/
def Region (ring : List (ℝ × ℝ)) (p : ℝ × ℝ) : Prop := OnRing ring p ∨ oddAt ring p = true

/-! ## Rows -/

variable {e : (ℝ × ℝ) × (ℝ × ℝ)} {ring : List (ℝ × ℝ)} {p : ℝ × ℝ} {r : ℝ}

/-- A row between the ends of an edge meets it. -/
theorem onSegment_crossX {y : ℝ} (hne : e.1.2 ≠ e.2.2) (hlow : min e.1.2 e.2.2 ≤ y)
    (hhigh : y ≤ max e.1.2 e.2.2) : OnSegment e.1 e.2 (crossX y e, y) := by
  have hd : e.2.2 - e.1.2 ≠ 0 := sub_ne_zero.2 (Ne.symm hne)
  refine ⟨(y - e.1.2) / (e.2.2 - e.1.2), ?_, ?_, ?_⟩
  · rcases lt_or_gt_of_ne hne with hlt | hgt
    · rw [min_eq_left (le_of_lt hlt)] at hlow
      exact div_nonneg (sub_nonneg.2 hlow) (sub_nonneg.2 (le_of_lt hlt))
    · rw [max_eq_left (le_of_lt hgt)] at hhigh
      exact div_nonneg_of_nonpos (sub_nonpos.2 hhigh) (sub_nonpos.2 (le_of_lt hgt))
  · rcases lt_or_gt_of_ne hne with hlt | hgt
    · rw [max_eq_right (le_of_lt hlt)] at hhigh
      rw [div_le_one (sub_pos.2 hlt)]
      linarith
    · rw [min_eq_right (le_of_lt hgt)] at hlow
      rw [div_le_one_of_neg (sub_neg.2 hgt)]
      linarith
  · unfold along crossX
    refine Prod.ext ?_ ?_
    · simp only
      ring
    · simp only
      rw [div_mul_cancel₀ _ hd]
      ring

theorem spans_bounds {y : ℝ} (h : spans y e = true) :
    (e.1.2 ≤ y ∧ y < e.2.2) ∨ (e.2.2 ≤ y ∧ y < e.1.2) := by
  unfold spans at h
  by_cases h1 : y < e.1.2
  · by_cases h2 : y < e.2.2
    · simp [h1, h2] at h
    · exact Or.inr ⟨not_lt.1 h2, h1⟩
  · by_cases h2 : y < e.2.2
    · exact Or.inl ⟨not_lt.1 h1, h2⟩
    · simp [h1, h2] at h

theorem onSegment_of_spans {y : ℝ} (h : spans y e = true) : OnSegment e.1 e.2 (crossX y e, y) := by
  rcases spans_bounds h with ⟨hlow, hhigh⟩ | ⟨hlow, hhigh⟩
  · have hlt : e.1.2 < e.2.2 := lt_of_le_of_lt hlow hhigh
    exact onSegment_crossX (ne_of_lt hlt) (le_trans (min_le_left _ _) hlow)
      (le_trans (le_of_lt hhigh) (le_max_right _ _))
  · have hlt : e.2.2 < e.1.2 := lt_of_le_of_lt hlow hhigh
    exact onSegment_crossX (ne_of_gt hlt) (le_trans (min_le_right _ _) hlow)
      (le_trans (le_of_lt hhigh) (le_max_left _ _))

/-- Around the ring a row is spanned an even number of times. -/
theorem even_spans (ring : List (ℝ × ℝ)) (y : ℝ) :
    Parity.odd ((edges ring).countP (spans y)) = false := by
  rw [← Parity.changes_closed (fun p : ℝ × ℝ => decide (y < p.2)) ring]
  congr 1
  apply List.countP_congr
  intro e _
  unfold spans
  rw [bne_comm]

/-! ## The box -/

/-- The point is within `r` of the box of the ring, in each direction. -/
structure InBox (r : ℝ) (ring : List (ℝ × ℝ)) (p : ℝ × ℝ) : Prop where
  left : ∃ v ∈ ring, v.1 - r ≤ p.1
  right : ∃ v ∈ ring, p.1 ≤ v.1 + r
  below : ∃ v ∈ ring, v.2 - r ≤ p.2
  above : ∃ v ∈ ring, p.2 ≤ v.2 + r

theorem InBox.mono {s : ℝ} (h : InBox r ring p) (hrs : r ≤ s) : InBox s ring p := by
  obtain ⟨⟨a, ha, hpa⟩, ⟨b, hb, hpb⟩, ⟨c, hc, hpc⟩, ⟨d, hd, hpd⟩⟩ := h
  exact ⟨⟨a, ha, by linarith⟩, ⟨b, hb, by linarith⟩, ⟨c, hc, by linarith⟩, ⟨d, hd, by linarith⟩⟩

theorem InBox.ne_nil (h : InBox r ring p) : ring ≠ [] := by
  intro hnil
  obtain ⟨v, hv, -⟩ := h.left
  rw [hnil] at hv
  cases hv

/-- Between two vertices is between the vertices. -/
theorem inBox_of_edge (he : e ∈ edges ring)
    (hx : min e.1.1 e.2.1 - r ≤ p.1 ∧ p.1 ≤ max e.1.1 e.2.1 + r)
    (hy : min e.1.2 e.2.2 - r ≤ p.2 ∧ p.2 ≤ max e.1.2 e.2.2 + r) : InBox r ring p := by
  obtain ⟨h1, h2⟩ := mem_of_edges he
  constructor
  · rcases min_choice e.1.1 e.2.1 with h | h
    · exact ⟨e.1, h1, h ▸ hx.1⟩
    · exact ⟨e.2, h2, h ▸ hx.1⟩
  · rcases max_choice e.1.1 e.2.1 with h | h
    · exact ⟨e.1, h1, h ▸ hx.2⟩
    · exact ⟨e.2, h2, h ▸ hx.2⟩
  · rcases min_choice e.1.2 e.2.2 with h | h
    · exact ⟨e.1, h1, h ▸ hy.1⟩
    · exact ⟨e.2, h2, h ▸ hy.1⟩
  · rcases max_choice e.1.2 e.2.2 with h | h
    · exact ⟨e.1, h1, h ▸ hy.2⟩
    · exact ⟨e.2, h2, h ▸ hy.2⟩

/-- Left of all vertices the ray meets every edge that spans the row, an even number. -/
theorem oddAt_left (h : ∀ v ∈ ring, p.1 < v.1) : oddAt ring p = false := by
  rw [← even_spans ring p.2]
  unfold oddAt
  congr 1
  apply List.countP_congr
  intro e he
  unfold crosses
  cases hspans : spans p.2 e with
  | false => rfl
  | true =>
    obtain ⟨h1, h2⟩ := mem_of_edges he
    have hle := (onSegment_of_spans hspans).between.1.1
    have hlt : p.1 < crossX p.2 e := lt_of_lt_of_le (lt_min (h _ h1) (h _ h2)) hle
    simp [hlt]

/-- What is odd lies in the box of the ring. -/
theorem box_of_oddAt (h : oddAt ring p = true) : InBox 0 ring p := by
  have hleft : ∃ v ∈ ring, v.1 - 0 ≤ p.1 := by
    by_contra hnone
    have hall : ∀ v ∈ ring, p.1 < v.1 := by
      intro v hv
      by_contra hlt
      exact hnone ⟨v, hv, by linarith [not_lt.1 hlt]⟩
    rw [oddAt_left hall] at h
    cases h
  have hsome : ∃ e ∈ edges ring, crosses p e = true := by
    by_contra hnone
    have hzero : (edges ring).countP (crosses p) = 0 := by
      apply List.countP_eq_zero.2
      intro e he hc
      exact hnone ⟨e, he, hc⟩
    unfold oddAt at h
    rw [hzero] at h
    cases h
  obtain ⟨e, he, hcrosses⟩ := hsome
  unfold crosses at hcrosses
  rw [Bool.and_eq_true] at hcrosses
  have hbetween := (onSegment_of_spans hcrosses.1).between
  have hlt : p.1 < crossX p.2 e := of_decide_eq_true hcrosses.2
  -- the crossing is within the edge, and the point on its row and left of it
  have hedge : InBox 0 ring (crossX p.2 e, p.2) :=
    inBox_of_edge he (by simpa using hbetween.1) (by simpa using hbetween.2)
  obtain ⟨b, hb, hpb⟩ := hedge.right
  exact ⟨hleft, ⟨b, hb, le_trans (le_of_lt hlt) hpb⟩, hedge.below, hedge.above⟩

theorem OnRing.box (h : OnRing ring p) : InBox 0 ring p := by
  obtain ⟨e, he, hon⟩ := h
  exact inBox_of_edge he (by simpa using hon.between.1) (by simpa using hon.between.2)

/-! ## Distance to an edge -/

/-- The nearest point of an edge, and its distance. -/
def nearest (p : ℝ × ℝ) (e : (ℝ × ℝ) × (ℝ × ℝ)) : ℝ × ℝ :=
  along e.1 e.2 (unitClamp (foot p e.1 e.2))

def edgeDist (p : ℝ × ℝ) (e : (ℝ × ℝ) × (ℝ × ℝ)) : ℝ := √(sqDist p (nearest p e))

theorem nearest_spec (p : ℝ × ℝ) (e : (ℝ × ℝ) × (ℝ × ℝ)) :
    Nearest e.1 e.2 p (nearest p e) := by
  unfold nearest
  by_cases h : sqDist e.2 e.1 = 0
  · rw [along_of_point h]
    exact nearest_point h p
  · exact nearest_clamp h p

theorem edgeDist_nonneg (p : ℝ × ℝ) (e : (ℝ × ℝ) × (ℝ × ℝ)) : 0 ≤ edgeDist p e :=
  Real.sqrt_nonneg _

/-- An edge is near when some point of it is. -/
theorem edgeDist_le_iff (hr : 0 ≤ r) :
    edgeDist p e ≤ r ↔ ∃ q, OnSegment e.1 e.2 q ∧ sqDist p q ≤ r ^ 2 := by
  obtain ⟨hon, hleast⟩ := nearest_spec p e
  unfold edgeDist
  rw [Real.sqrt_le_left hr]
  constructor
  · intro h
    exact ⟨_, hon, h⟩
  · intro h
    obtain ⟨q, hq, hle⟩ := h
    exact le_trans (hleast q hq) hle

theorem edgeDist_le_zero : edgeDist p e ≤ 0 ↔ OnSegment e.1 e.2 p := by
  rw [edgeDist_le_iff (le_refl 0)]
  constructor
  · intro h
    obtain ⟨q, hq, hle⟩ := h
    have hzero : sqDist p q = 0 := le_antisymm (by simpa using hle) (sqDist_nonneg p q)
    unfold sqDist at hzero
    obtain ⟨hx, hy⟩ :=
      (add_eq_zero_iff_of_nonneg (mul_self_nonneg _) (mul_self_nonneg _)).1 hzero
    have hpq : p = q :=
      Prod.ext (sub_eq_zero.1 (mul_self_eq_zero.1 hx)) (sub_eq_zero.1 (mul_self_eq_zero.1 hy))
    rw [hpq]
    exact hq
  · intro h
    refine ⟨p, h, ?_⟩
    unfold sqDist
    simp

/-- Each coordinate is as near as the point. -/
theorem abs_sub_le_of_sqDist {q : ℝ × ℝ} (hr : 0 ≤ r) (h : sqDist p q ≤ r ^ 2) :
    |p.1 - q.1| ≤ r ∧ |p.2 - q.2| ≤ r := by
  unfold sqDist at h
  constructor
  · apply abs_le_of_sq_le_sq _ hr
    nlinarith [mul_self_nonneg (p.2 - q.2)]
  · apply abs_le_of_sq_le_sq _ hr
    nlinarith [mul_self_nonneg (p.1 - q.1)]

/-- What is near an edge is in its box, widened by as much. -/
theorem between_of_edgeDist (h : edgeDist p e ≤ r) :
    (min e.1.1 e.2.1 - r ≤ p.1 ∧ p.1 ≤ max e.1.1 e.2.1 + r) ∧
      min e.1.2 e.2.2 - r ≤ p.2 ∧ p.2 ≤ max e.1.2 e.2.2 + r := by
  have hr : 0 ≤ r := le_trans (edgeDist_nonneg p e) h
  obtain ⟨q, hq, hle⟩ := (edgeDist_le_iff hr).1 h
  obtain ⟨hx, hy⟩ := abs_sub_le_of_sqDist hr hle
  have hbetween := hq.between
  rw [abs_le] at hx hy
  refine ⟨⟨?_, ?_⟩, ?_, ?_⟩
  · linarith [hbetween.1.1]
  · linarith [hbetween.1.2]
  · linarith [hbetween.2.1]
  · linarith [hbetween.2.2]

theorem box_of_edgeDist (he : e ∈ edges ring) (h : edgeDist p e ≤ r) : InBox r ring p :=
  inBox_of_edge he (between_of_edgeDist h).1 (between_of_edgeDist h).2

/-! ## Boxes are closed, and a segment is connected -/

theorem isClosed_inBox (r : ℝ) (ring : List (ℝ × ℝ)) : IsClosed {p | InBox r ring p} := by
  have hset : {p : ℝ × ℝ | InBox r ring p} =
      ((⋃ v ∈ {v | v ∈ ring}, {p : ℝ × ℝ | v.1 - r ≤ p.1}) ∩
        ⋃ v ∈ {v | v ∈ ring}, {p : ℝ × ℝ | p.1 ≤ v.1 + r}) ∩
      ((⋃ v ∈ {v | v ∈ ring}, {p : ℝ × ℝ | v.2 - r ≤ p.2}) ∩
        ⋃ v ∈ {v | v ∈ ring}, {p : ℝ × ℝ | p.2 ≤ v.2 + r}) := by
    ext p
    simp only [Set.mem_ofPred_eq, Set.mem_inter_iff, Set.mem_iUnion, exists_prop]
    constructor
    · intro h
      exact ⟨⟨h.left, h.right⟩, h.below, h.above⟩
    · intro h
      exact ⟨h.1.1, h.1.2, h.2.1, h.2.2⟩
  have hfinite : {v | v ∈ ring}.Finite := List.finite_toSet ring
  rw [hset]
  refine ((hfinite.isClosed_biUnion ?_).inter (hfinite.isClosed_biUnion ?_)).inter
    ((hfinite.isClosed_biUnion ?_).inter (hfinite.isClosed_biUnion ?_))
  · intro v _
    exact isClosed_le continuous_const continuous_fst
  · intro v _
    exact isClosed_le continuous_fst continuous_const
  · intro v _
    exact isClosed_le continuous_const continuous_snd
  · intro v _
    exact isClosed_le continuous_snd continuous_const

theorem continuous_along (a b : ℝ × ℝ) : Continuous (along a b) := by
  unfold along
  exact (continuous_const.add (continuous_id.mul continuous_const)).prodMk
    (continuous_const.add (continuous_id.mul continuous_const))

/-- A segment within two closed sets that do not meet stays in the one it starts in. -/
theorem segment_stays {A B : Set (ℝ × ℝ)} (hA : IsClosed A) (hB : IsClosed B)
    (hdisjoint : ∀ p ∈ A, p ∉ B) {a b : ℝ × ℝ} (hcover : ∀ p, OnSegment a b p → p ∈ A ∨ p ∈ B)
    (ha : a ∈ A) : b ∈ A := by
  have hstart : along a b 0 = a := by
    unfold along
    simp
  have hend : along a b 1 = b := by
    unfold along
    simp
  have hwithin : ∀ t ∈ Set.Icc (0 : ℝ) 1, along a b t ∈ A ∨ along a b t ∈ B := by
    intro t ht
    exact hcover _ ⟨t, ht.1, ht.2, rfl⟩
  by_contra hb
  have hbB : b ∈ B := by
    rcases hwithin 1 ⟨zero_le_one, le_refl 1⟩ with h | h
    · exact absurd (hend ▸ h) hb
    · exact hend ▸ h
  obtain ⟨t, -, htA, htB⟩ := isPreconnected_closed_iff.1 isPreconnected_Icc
    (Set.preimage (along a b) A) (Set.preimage (along a b) B)
    (hA.preimage (continuous_along a b)) (hB.preimage (continuous_along a b)) hwithin
    ⟨0, ⟨le_refl 0, zero_le_one⟩, by rw [Set.mem_preimage, hstart]; exact ha⟩
    ⟨1, ⟨zero_le_one, le_refl 1⟩, by rw [Set.mem_preimage, hend]; exact hbB⟩
  exact hdisjoint _ htA htB

end

end Polygon
end Mowgli
