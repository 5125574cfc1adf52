import Mowgli.Lib.Breaks
import Mowgli.Lib.Crossing
import Mowgli.Lib.EvenOdd
import Mowgli.Transit.Reals

/-!
# SegmentExact — one middle decides a gap

The tests of a segment over exact numbers and with no tolerance. Between two cuts an edge holds all
points of the segment or none, so off its edges a ring is inside or outside for a whole gap, and
**the middle decides**. A ring is closed, so what holds in a gap holds at its ends.
-/

namespace Mowgli
namespace Transit

open Segment

noncomputable section

variable {ulp : ℝ → NNReal}

/-! ## The cuts -/

variable (ulp) in
theorem edgeCuts_lift (a b : ℝ × ℝ) (e : (ℝ × ℝ) × (ℝ × ℝ)) :
    edgeCuts (realFormat 0 ulp) (lift a) (lift b) (liftEdge e) =
      (meetings a b e).map (fun t : ℝ => (t : EReal)) := by
  have hway : ∀ p q : ℝ × ℝ, (⟨(realFormat 0 ulp).sub (lift q).x (lift p).x,
      (realFormat 0 ulp).sub (lift q).y (lift p).y⟩ : Point EReal) = lift (way p q) := by
    intro p q
    unfold way lift
    simp only [real_sub]
  have hlen : (realFormat 0 ulp).add
      ((realFormat 0 ulp).mul ((realFormat 0 ulp).sub (lift b).x (lift a).x)
        ((realFormat 0 ulp).sub (lift b).x (lift a).x))
      ((realFormat 0 ulp).mul ((realFormat 0 ulp).sub (lift b).y (lift a).y)
        ((realFormat 0 ulp).sub (lift b).y (lift a).y)) = ((sqDist b a : ℝ) : EReal) := by
    simp only [lift_x, lift_y, real_sub, real_mul, real_add]
    rfl
  have hwedge : ∀ u v : ℝ × ℝ, cross (realFormat 0 ulp) (lift u) (lift v) =
      ((wedge u v : ℝ) : EReal) := cross_lift
  have hfoot : ∀ p : ℝ × ℝ, (realFormat 0 ulp).clamp
      ((realFormat 0 ulp).div
        ((realFormat 0 ulp).add
          ((realFormat 0 ulp).mul ((realFormat 0 ulp).sub (lift p).x (lift a).x)
            ((realFormat 0 ulp).sub (lift b).x (lift a).x))
          ((realFormat 0 ulp).mul ((realFormat 0 ulp).sub (lift p).y (lift a).y)
            ((realFormat 0 ulp).sub (lift b).y (lift a).y))) ((sqDist b a : ℝ) : EReal))
      ((0 : ℝ) : EReal) ((1 : ℝ) : EReal) = ((unitClamp (foot p a b) : ℝ) : EReal) := by
    intro p
    simp only [lift_x, lift_y, real_sub, real_mul, real_add, real_div]
    exact real_clamp_unit _
  unfold edgeCuts meetings liftEdge
  simp only [hway, hlen, hwedge, real_kEpsilon, real_abs, real_lt, real_le, real_div,
    real_lit_zero, real_lit_one, between, List.map_cons, List.map_nil, hfoot]
  simp only [decide_eq_true_eq, Bool.and_eq_true]
  split
  · split
    · rfl
    · rfl
  · split
    · rfl
    · rfl

/-- `cuts`, in the plane. -/
def places (a b : ℝ × ℝ) (rings : List (List (ℝ × ℝ))) : List ℝ :=
  (([0, 1] ++ rings.flatMap fun ring => (Polygon.edges ring).flatMap (meetings a b)).insertionSort
    (· ≤ ·)).destutter (· ≠ ·)

variable (ulp) in
theorem cuts_lift (a b : ℝ × ℝ) (rings : List (List (ℝ × ℝ))) :
    cuts (realFormat 0 ulp) (lift a) (lift b) (rings.map liftRing) =
      (places a b rings).map (fun t : ℝ => (t : EReal)) := by
  have hlist : ([(realFormat 0 ulp).lit 0, (realFormat 0 ulp).lit 1] ++
      (rings.map liftRing).flatMap fun ring =>
        (edges ring).flatMap (edgeCuts (realFormat 0 ulp) (lift a) (lift b))) =
      ([0, 1] ++ rings.flatMap fun ring => (Polygon.edges ring).flatMap (meetings a b)).map
        (fun t : ℝ => (t : EReal)) := by
    simp only [real_lit_zero, real_lit_one, List.map_append, List.map_cons, List.map_nil,
      List.flatMap_map, List.map_flatMap, edges_lift, edgeCuts_lift]
  unfold cuts places
  rw [hlist, sorted_lift]
  refine (List.map_destutter ?_).symm
  intro s _ t _
  rw [real_eq, decide_eq_false_iff_not]

theorem mem_places {a b : ℝ × ℝ} {rings : List (List (ℝ × ℝ))} {t : ℝ} :
    t ∈ places a b rings ↔ (t = 0 ∨ t = 1) ∨
      ∃ ring ∈ rings, ∃ e ∈ Polygon.edges ring, t ∈ meetings a b e := by
  unfold places
  rw [Breaks.mem_destutter, List.mem_insertionSort]
  simp only [List.mem_append, List.mem_cons, List.not_mem_nil, or_false, List.mem_flatMap]

theorem places_splits (a b : ℝ × ℝ) (rings : List (List (ℝ × ℝ))) :
    Breaks.Splits (places a b rings) := by
  refine ⟨?_, mem_places.2 (Or.inl (Or.inl rfl)), mem_places.2 (Or.inl (Or.inr rfl)), ?_⟩
  · exact (Breaks.strict_destutter (List.pairwise_insertionSort _ _)).imp fun h => le_of_lt h
  · intro t ht
    rcases mem_places.1 ht with (rfl | rfl) | ⟨ring, -, e, -, hmeet⟩
    · exact ⟨le_refl 0, zero_le_one⟩
    · exact ⟨zero_le_one, le_refl 1⟩
    · exact meetings_unit hmeet

/-- There are more than the two ends when some edge is met inside the segment. -/
theorem two_lt_places {a b : ℝ × ℝ} {rings : List (List (ℝ × ℝ))} :
    2 < (places a b rings).length ↔ ∃ t ∈ places a b rings, 0 < t ∧ t < 1 := by
  have hsplits := places_splits a b rings
  have hstrict : (places a b rings).Pairwise (· < ·) :=
    Breaks.strict_destutter (List.pairwise_insertionSort _ _)
  constructor
  · intro hlen
    by_contra hnone
    have hsub : places a b rings ⊆ [0, 1] := by
      intro t ht
      obtain ⟨h0, h1⟩ := hsplits.unit t ht
      rcases eq_or_lt_of_le h0 with rfl | h0
      · simp
      · rcases eq_or_lt_of_le h1 with rfl | h1
        · simp
        · exact absurd ⟨t, ht, h0, h1⟩ hnone
    have hnodup : (places a b rings).Nodup := hstrict.imp fun h => ne_of_lt h
    exact absurd (hnodup.subperm hsub).length_le (not_le.2 hlen)
  · intro h
    obtain ⟨t, ht, h0, h1⟩ := h
    have hnodup : [0, t, 1].Nodup := by
      simp [ne_of_lt h0, ne_of_lt h1]
    have hsub : [0, t, 1] ⊆ places a b rings := by
      intro x hx
      simp only [List.mem_cons, List.not_mem_nil, or_false] at hx
      rcases hx with rfl | rfl | rfl
      · exact hsplits.first
      · exact ht
      · exact hsplits.last
    exact (hnodup.subperm hsub).length_le

/-! ## Between cuts -/

section Gap

variable {a b : ℝ × ℝ} {rings : List (List (ℝ × ℝ))} {gap : ℝ × ℝ}
  (hgap : gap ∈ Breaks.gaps (places a b rings)) {ring : List (ℝ × ℝ)} (hring : ring ∈ rings)
  {s t : ℝ}

include hgap in
theorem gap_unit : 0 ≤ gap.1 ∧ gap.1 ≤ gap.2 ∧ gap.2 ≤ 1 := by
  obtain ⟨h1, h2⟩ := Breaks.mem_of_gaps hgap
  have hsplits := places_splits a b rings
  exact ⟨(hsplits.unit _ h1).1, (Breaks.gaps_spec hsplits.sorted hgap).1, (hsplits.unit _ h2).2⟩

include hgap hring

/-- Inside a gap the boundary is met everywhere or nowhere. -/
theorem onRing_same (hs : Breaks.Within gap s) (ht : Breaks.Within gap t)
    (h : Polygon.OnRing ring (along a b s)) : Polygon.OnRing ring (along a b t) := by
  obtain ⟨e, he, hon⟩ := h
  obtain ⟨h0, -, h1⟩ := gap_unit hgap
  refine ⟨e, he, meetings_gap h0 h1 ?_ hs hon ht⟩
  intro x hx
  exact (Breaks.gaps_spec (places_splits a b rings).sorted hgap).2 x
    (mem_places.2 (Or.inr ⟨ring, hring, e, he, hx⟩))

theorem region_same (hs : Breaks.Within gap s) (ht : Breaks.Within gap t)
    (h : Polygon.Region ring (along a b s)) : Polygon.Region ring (along a b t) := by
  by_cases hon : Polygon.OnRing ring (along a b s)
  · exact Or.inl (onRing_same hgap hring hs ht hon)
  · have hodd := h.resolve_left hon
    refine Or.inr ?_
    rw [← Polygon.oddAt_same (s := s) (t := t)]
    · exact hodd
    · intro w hw hon'
      have hbetween := Set.mem_uIcc.1 hw
      have hwithin : Breaks.Within gap w := by
        rcases hbetween with h | h
        · exact ⟨lt_of_lt_of_le hs.1 h.1, lt_of_le_of_lt h.2 ht.2⟩
        · exact ⟨lt_of_lt_of_le ht.1 h.1, lt_of_le_of_lt h.2 hs.2⟩
      exact hon (onRing_same hgap hring hwithin hs hon')

/-- The middle of a gap decides for the gap with its ends. -/
theorem region_gap (h : Polygon.Region ring (along a b ((gap.1 + gap.2) / 2)))
    (ht : gap.1 ≤ t ∧ t ≤ gap.2) : Polygon.Region ring (along a b t) := by
  rcases eq_or_lt_of_le (gap_unit hgap).2.1 with heq | hlt
  · have hmid : t = (gap.1 + gap.2) / 2 := by linarith [ht.1, ht.2]
    rw [hmid]
    exact h
  · have hopen : Set.Ioo gap.1 gap.2 ⊆ {w | Polygon.Region ring (along a b w)} := by
      intro w hw
      exact region_same hgap hring (Breaks.within_half hlt) hw h
    have hclosed : IsClosed {w | Polygon.Region ring (along a b w)} :=
      (Polygon.isClosed_region ring).preimage (Polygon.continuous_along a b)
    have hclosure := closure_minimal hopen hclosed
    rw [closure_Ioo (ne_of_lt hlt)] at hclosure
    exact hclosure ht

end Gap

/-! ## Authorized segments -/

variable (ulp) in
theorem middles_lift (a b : ℝ × ℝ) (ts : List ℝ) :
    middles (realFormat 0 ulp) (lift a) (lift b) (ts.map (fun t : ℝ => (t : EReal))) =
      (Breaks.gaps ts).map fun e => lift (along a b ((e.1 + e.2) / 2)) := by
  unfold middles Breaks.gaps
  rw [← List.map_tail, List.zip_map, List.map_map]
  apply List.map_congr_left
  intro e _
  show interpolate (realFormat 0 ulp) (lift a) (lift b)
    (half (realFormat 0 ulp) (e.1 : EReal) (e.2 : EReal)) = _
  rw [half_coe, interpolate_lift]

variable {ring : List (ℝ × ℝ)} {p : ℝ × ℝ} {g : Ground}

theorem nearRing_zero : NearRing 0 ring p ↔ Polygon.OnRing ring p := by
  unfold NearRing Polygon.OnRing
  simp only [Polygon.edgeDist_le_zero]

theorem inside_zero (h : 3 ≤ ring.length) (p : ℝ × ℝ) :
    Inside 0 ring p ↔ Polygon.Region ring p := by
  unfold Inside Polygon.Region
  rw [nearRing_zero]
  exact and_iff_right h

/-- In the closed union of the rings. -/
def InUnion (rings : List (List (ℝ × ℝ))) (p : ℝ × ℝ) : Prop :=
  ∃ ring ∈ rings, Polygon.Region ring p

theorem authorized_zero (hrings : g.Rings) (p : ℝ × ℝ) :
    g.geometry.authorized (realFormat 0 ulp) (lift p) = true ↔ InUnion g.allowed p := by
  rw [authorized_lift]
  unfold Ground.Authorized InUnion
  exact exists_congr fun ring => and_congr_right fun hring =>
    inside_zero ((g.rings_iff.1 hrings).1 ring hring) p

theorem segmentAuthorized_iff (hrings : g.Rings) (a b : ℝ × ℝ) :
    g.geometry.segmentAuthorized (realFormat 0 ulp) (lift a) (lift b) = true ↔
      ∀ p, OnSegment a b p → InUnion g.allowed p := by
  unfold Geometry.segmentAuthorized
  rw [show g.geometry.allowed = g.allowed.map liftRing from rfl, cuts_lift, middles_lift,
    List.all_map, Bool.and_eq_true, Bool.and_eq_true, List.all_eq_true, authorized_zero hrings,
    authorized_zero hrings]
  constructor
  · rintro ⟨-, hmiddles⟩ p ⟨t, h0, h1, rfl⟩
    obtain ⟨gap, hgap, ht⟩ := (places_splits a b g.allowed).closed_gap h0 h1
    obtain ⟨ring, hring, hregion⟩ := (authorized_zero hrings _).1 (hmiddles gap hgap)
    exact ⟨ring, hring, region_gap hgap hring hregion ht⟩
  · intro h
    refine ⟨⟨h a (onSegment_first a b), h b (onSegment_last a b)⟩, ?_⟩
    intro gap hgap
    obtain ⟨h0, h1⟩ := (places_splits a b g.allowed).half hgap
    exact (authorized_zero hrings _).2 (h _ ⟨_, h0, h1, rfl⟩)

/-! ## Clear segments -/

/-- Outside every blocked ring, and farther from it than its margin. -/
def Ground.Free (g : Ground) (p : ℝ × ℝ) : Prop :=
  ∀ f ∈ g.fences, ¬ Polygon.Region f.1 p ∧ ∀ q, Polygon.OnRing f.1 q → f.2 < √(sqDist p q)

theorem nearRing_iff {m : ℝ} (hm : 0 ≤ m) :
    NearRing m ring p ↔ ∃ q, Polygon.OnRing ring q ∧ √(sqDist p q) ≤ m := by
  unfold NearRing Polygon.OnRing
  constructor
  · intro h
    obtain ⟨e, he, hle⟩ := h
    obtain ⟨q, hq, hle⟩ := (Polygon.edgeDist_le_iff hm).1 hle
    exact ⟨q, ⟨e, he, hq⟩, (Real.sqrt_le_left hm).2 hle⟩
  · intro h
    obtain ⟨q, ⟨e, he, hq⟩, hle⟩ := h
    exact ⟨e, he, (Polygon.edgeDist_le_iff hm).2 ⟨q, hq, (Real.sqrt_le_left hm).1 hle⟩⟩

/-- Outside one ring, and farther from it than a margin. -/
def Apart (m : ℝ) (ring : List (ℝ × ℝ)) (p : ℝ × ℝ) : Prop :=
  ¬ Polygon.Region ring p ∧ ¬ NearRing m ring p

theorem Ground.free_iff (hg : g.Margins) (p : ℝ × ℝ) :
    g.Free p ↔ ∀ f ∈ g.fences, Apart f.2 f.1 p := by
  unfold Ground.Free Apart
  refine forall₂_congr fun f hf => and_congr_right fun _ => ?_
  rw [nearRing_iff (g.margins_iff.1 hg f hf)]
  simp only [not_exists, not_and, not_le]

theorem clear_zero (hg : g.Margins) (hrings : g.Rings) (p : ℝ × ℝ) :
    g.geometry.clear (realFormat 0 ulp) (lift p) = true ↔ ∀ f ∈ g.fences, Apart f.2 f.1 p := by
  rw [clear_lift (le_refl 0) hg, Ground.clear_iff]
  refine forall₂_congr fun f hf => ?_
  rw [inside_zero ((g.rings_iff.1 hrings).2 f hf), add_zero]
  rfl

section Fence

variable {a b : ℝ × ℝ} {ring : List (ℝ × ℝ)} {m : ℝ}

/-- No end of the segment or of an edge is within the margin. -/
def EndsApart (m : ℝ) (ring : List (ℝ × ℝ)) (a b : ℝ × ℝ) : Prop :=
  ∀ e ∈ Polygon.edges ring, (m < Polygon.edgeDist a e ∧ m < Polygon.edgeDist b e) ∧
    m < Polygon.edgeDist e.1 (a, b) ∧ m < Polygon.edgeDist e.2 (a, b)

variable (ulp) in
theorem endsApart_lift (ring : List (ℝ × ℝ)) (a b : ℝ × ℝ) (m : ℝ) :
    ((edges (liftRing ring)).all fun e =>
      !(realFormat 0 ulp).le
        ([edgeDistance (realFormat 0 ulp) (lift b) e.1 e.2,
          edgeDistance (realFormat 0 ulp) e.1 (lift a) (lift b),
          edgeDistance (realFormat 0 ulp) e.2 (lift a) (lift b)].foldl (realFormat 0 ulp).min
            (edgeDistance (realFormat 0 ulp) (lift a) e.1 e.2)) (m : EReal)) = true ↔
      EndsApart m ring a b := by
  unfold EndsApart
  rw [edges_lift, List.all_map, List.all_eq_true]
  refine forall₂_congr fun e _ => ?_
  simp only [Function.comp_apply, liftEdge, edgeDistance_lift, List.foldl_cons, List.foldl_nil,
    real_min, real_le, Bool.not_eq_true', decide_eq_false_iff_not, not_le, lt_min_iff, and_assoc]

/-- Apart at its ends from a ring that it does not meet, a segment is apart from it. -/
theorem apart_of_ends (hm : 0 ≤ m) (ha : Apart m ring a) (hcuts : ¬ 2 < (places a b [ring]).length)
    (hends : remoteRing (realFormat 0 ulp) (lift a) (lift b) (liftRing ring) (m : EReal) = true ∨
      EndsApart m ring a b) (hp : OnSegment a b p) : Apart m ring p := by
  -- no point of the segment is near an edge
  have hfar : ∀ q, OnSegment a b q → ¬ NearRing m ring q := by
    rintro q hq ⟨e, he, hle⟩
    rcases hends with hremote | hends
    · have hbox := Polygon.box_of_edgeDist he hle
      rw [← max_eq_right hm] at hbox
      exact remoteRing_lift hbox.ne_nil hremote hq.between.1 hq.between.2 hbox
    · obtain ⟨q', hq', hle⟩ := (Polygon.edgeDist_le_iff hm).1 hle
      obtain ⟨⟨h1, h2⟩, h3, h4⟩ := hends e he
      rcases near_ends hq hq' hle with ⟨t, ht, hmeet⟩ | ⟨p', hp', q', hon, hle⟩ |
        ⟨q', hq', p', hon, hle⟩
      · refine hcuts (two_lt_places.2 ⟨t, ?_, ht⟩)
        exact mem_places.2 (Or.inr ⟨ring, List.mem_singleton.2 rfl, e, he, hmeet⟩)
      · have hnear := (Polygon.edgeDist_le_iff hm).2 ⟨q', hon, hle⟩
        rcases hp' with rfl | rfl
        · exact absurd hnear (not_le.2 h1)
        · exact absurd hnear (not_le.2 h2)
      · have hswap : sqDist q' p' ≤ m ^ 2 := by
          rw [sqDist_comm]
          exact hle
        have hnear := (Polygon.edgeDist_le_iff (e := (a, b)) hm).2 ⟨p', hon, hswap⟩
        rcases hq' with rfl | rfl
        · exact absurd hnear (not_le.2 h3)
        · exact absurd hnear (not_le.2 h4)
  refine ⟨?_, hfar p hp⟩
  have hoff : ∀ q, OnSegment a b q → ¬ Polygon.OnRing ring q := by
    intro q hq hon
    exact hfar q hq ((nearRing_zero.2 hon).mono hm)
  rintro (hon | hodd)
  · exact hoff p hp hon
  · -- from the outside to the inside the boundary would be met
    obtain ⟨t, h0, h1, rfl⟩ := hp
    have hsame : Polygon.oddAt ring (along a b 0) = Polygon.oddAt ring (along a b t) := by
      refine Polygon.oddAt_same fun w hw => ?_
      rw [Set.uIcc_of_le h0] at hw
      exact hoff _ ⟨w, hw.1, le_trans hw.2 h1, rfl⟩
    rw [along_zero] at hsame
    exact ha.1 (Or.inr (hsame.trans hodd))

/-- A segment apart from a ring passes the tests. -/
theorem ends_of_apart (hm : 0 ≤ m) (hall : ∀ p, OnSegment a b p → Apart m ring p) :
    ¬ 2 < (places a b [ring]).length ∧ EndsApart m ring a b := by
  constructor
  · intro hlen
    obtain ⟨t, ht, h0, h1⟩ := two_lt_places.1 hlen
    rcases mem_places.1 ht with (rfl | rfl) | ⟨ring', hring, e, he, hmeet⟩
    · exact lt_irrefl 0 h0
    · exact lt_irrefl 1 h1
    · rw [List.mem_singleton.1 hring] at he
      refine (hall _ ⟨t, le_of_lt h0, le_of_lt h1, rfl⟩).1 (Or.inl ?_)
      exact ⟨e, he, meetings_on hmeet h0 h1⟩
  · intro e he
    have hend : ∀ p, OnSegment a b p → m < Polygon.edgeDist p e := by
      intro p hp
      by_contra hle
      exact (hall p hp).2 ⟨e, he, not_lt.1 hle⟩
    have hvertex : ∀ v, OnSegment e.1 e.2 v → m < Polygon.edgeDist v (a, b) := by
      intro v hv
      by_contra hle
      obtain ⟨p, hp, hle⟩ := (Polygon.edgeDist_le_iff hm).1 (not_lt.1 hle)
      rw [sqDist_comm] at hle
      exact (hall p hp).2 ⟨e, he, (Polygon.edgeDist_le_iff hm).2 ⟨v, hv, hle⟩⟩
    exact ⟨⟨hend a (onSegment_first a b), hend b (onSegment_last a b)⟩,
      hvertex _ (onSegment_first _ _), hvertex _ (onSegment_last _ _)⟩

end Fence

theorem segmentClear_iff (hg : g.Margins) (hrings : g.Rings) (a b : ℝ × ℝ) :
    g.geometry.segmentClear (realFormat 0 ulp) (lift a) (lift b) = true ↔
      ∀ p, OnSegment a b p → g.Free p := by
  unfold Geometry.segmentClear
  rw [zipIdx_lift, List.all_map, Bool.and_eq_true, Bool.and_eq_true, List.all_eq_true,
    clear_zero hg hrings, clear_zero hg hrings]
  have hone : ∀ x : List (ℝ × ℝ) × ℕ,
      (!decide (2 < (cuts (realFormat 0 ulp) (lift a) (lift b) [liftRing x.1]).length) &&
        (remoteRing (realFormat 0 ulp) (lift a) (lift b) (liftRing x.1)
            ((realFormat 0 ulp).add (g.geometry.margin x.2) (kEpsilon (realFormat 0 ulp))) ||
          (edges (liftRing x.1)).all fun e =>
            !(realFormat 0 ulp).le
              ([edgeDistance (realFormat 0 ulp) (lift b) e.1 e.2,
                edgeDistance (realFormat 0 ulp) e.1 (lift a) (lift b),
                edgeDistance (realFormat 0 ulp) e.2 (lift a) (lift b)].foldl
                (realFormat 0 ulp).min (edgeDistance (realFormat 0 ulp) (lift a) e.1 e.2))
              ((realFormat 0 ulp).add (g.geometry.margin x.2)
                (kEpsilon (realFormat 0 ulp))))) = true ↔
      ¬ 2 < (places a b [x.1]).length ∧
        (remoteRing (realFormat 0 ulp) (lift a) (lift b) (liftRing x.1)
            ((g.margin x.2 : ℝ) : EReal) = true ∨ EndsApart (g.margin x.2) x.1 a b) := by
    intro x
    have hcuts := cuts_lift ulp a b [x.1]
    rw [List.map_singleton] at hcuts
    rw [hcuts, List.length_map, margin_lift, real_kEpsilon, real_add, add_zero, Bool.and_eq_true,
      Bool.or_eq_true, endsApart_lift, Bool.not_eq_true', decide_eq_false_iff_not]
  have hfence : ∀ x ∈ g.blocked.zipIdx, (x.1, g.margin x.2) ∈ g.fences := by
    intro x hx
    exact List.mem_map_of_mem (f := fun x : List (ℝ × ℝ) × ℕ => (x.1, g.margin x.2)) hx
  constructor
  · rintro ⟨⟨ha, -⟩, htests⟩ p hp
    rw [Ground.free_iff hg]
    intro f hf
    obtain ⟨x, hx, rfl⟩ := List.mem_map.1 hf
    obtain ⟨hcuts, hends⟩ := (hone x).1 (htests x hx)
    exact apart_of_ends (hg x hx) (ha _ hf) hcuts hends hp
  · intro hall
    have hapart : ∀ p, OnSegment a b p → ∀ f ∈ g.fences, Apart f.2 f.1 p := by
      intro p hp
      exact (Ground.free_iff hg p).1 (hall p hp)
    refine ⟨⟨hapart a (onSegment_first a b), hapart b (onSegment_last a b)⟩, ?_⟩
    intro x hx
    obtain ⟨hcuts, hends⟩ := ends_of_apart (hg x hx)
      fun p hp => hapart p hp _ (hfence x hx)
    exact (hone x).2 ⟨hcuts, Or.inr hends⟩

/-! ## Legs that enter the union -/

theorem entered_stays {α : Type} {into far : α → Bool} {l : List α} {r : Bool}
    (h : l.foldlM (fun entered e =>
      if entered && !into e then none
      else if !into e && far e then none
      else some (entered || into e)) true = some r) : ∀ e ∈ l, into e = true := by
  induction l with
  | nil =>
    intro e he
    cases he
  | cons a l ih =>
    rw [List.foldlM_cons] at h
    cases hinto : into a with
    | false =>
      rw [hinto] at h
      cases h
    | true =>
      rw [hinto] at h
      intro e he
      rcases List.mem_cons.1 he with rfl | he
      · exact hinto
      · exact ih h e he

/-- A run over the gaps that ends inside: first gaps outside, each with its end in reach, then
gaps inside. -/
theorem enter_run {α : Type} {into far : α → Bool} {l : List α}
    (h : l.foldlM (fun entered e =>
      if entered && !into e then none
      else if !into e && far e then none
      else some (entered || into e)) false = some true) :
    ∃ outs ins, l = outs ++ ins ∧ ins ≠ [] ∧ (∀ e ∈ outs, into e = false ∧ far e = false) ∧
      ∀ e ∈ ins, into e = true := by
  induction l with
  | nil => cases h
  | cons a l ih =>
    rw [List.foldlM_cons] at h
    cases hinto : into a with
    | false =>
      cases hfar : far a with
      | true =>
        rw [hinto, hfar] at h
        cases h
      | false =>
        rw [hinto, hfar] at h
        obtain ⟨outs, ins, rfl, hne, houts, hins⟩ := ih h
        refine ⟨a :: outs, ins, rfl, hne, ?_, hins⟩
        intro e he
        rcases List.mem_cons.1 he with rfl | he
        · exact ⟨hinto, hfar⟩
        · exact houts e he
    | true =>
      rw [hinto] at h
      refine ⟨[], a :: l, rfl, by simp, ?_, ?_⟩
      · intro e he
        cases he
      · intro e he
        rcases List.mem_cons.1 he with rfl | he
        · exact hinto
        · exact entered_stays h e he

/-- An allowed ring whose boundary comes as near as that of any other. -/
def Ground.IsNearest (g : Ground) (p : ℝ × ℝ) (ring : List (ℝ × ℝ)) : Prop :=
  ring ∈ g.allowed ∧ ∀ ring' ∈ g.allowed, ∀ q', Polygon.OnRing ring' q' →
    ∃ q, Polygon.OnRing ring q ∧ sqDist p q ≤ sqDist p q'

/-- In the closed union of the nearest rings of a point. -/
def Ground.InNearest (g : Ground) (p q : ℝ × ℝ) : Prop :=
  ∃ ring, g.IsNearest p ring ∧ Polygon.Region ring q

section Nearest

variable {g : Ground} {p : ℝ × ℝ} {n : ℝ}

variable (ulp) in
/-- The distance to the nearest ring. -/
def nearestDistance (g : Ground) (p : ℝ × ℝ) : EReal :=
  g.geometry.allowed.foldl
    (fun nearest ring =>
      (realFormat 0 ulp).min nearest (ringDistance (realFormat 0 ulp) (lift p) ring))
    (realFormat 0 ulp).infinity

theorem nearestDistance_le {r : EReal} (hr : r ≠ ⊤) : nearestDistance ulp g p ≤ r ↔
    ∃ ring ∈ g.allowed, ringDistance (realFormat 0 ulp) (lift p) (liftRing ring) ≤ r := by
  unfold nearestDistance
  rw [foldl_min_le]
  have htop : ¬ (realFormat 0 ulp).infinity ≤ r := fun h => hr (top_le_iff.1 h)
  unfold Ground.geometry
  simp only [htop, false_or, List.mem_map, exists_exists_and_eq_and]

theorem ringDistance_nonneg {r : ℝ}
    (h : ringDistance (realFormat 0 ulp) (lift p) (liftRing ring) ≤ (r : EReal)) : 0 ≤ r := by
  unfold ringDistance at h
  split at h
  · rw [real_lit_zero, EReal.coe_le_coe_iff] at h
    exact h
  · rw [edges_lift, List.foldl_map, foldl_min_le] at h
    rcases h with h | ⟨e, -, h⟩
    · exact absurd (top_le_iff.1 h) (EReal.coe_ne_top r)
    · unfold liftEdge at h
      rw [edgeDistance_lift, EReal.coe_le_coe_iff] at h
      exact le_trans (Polygon.edgeDist_nonneg _ _) h

variable (hrings : g.Rings) (hout : ¬ InUnion g.allowed p)

variable (ulp) in
include hrings hout in
theorem ringDistance_le (hring : ring ∈ g.allowed) {r : ℝ} (hr : 0 ≤ r) :
    ringDistance (realFormat 0 ulp) (lift p) (liftRing ring) ≤ (r : EReal) ↔
      NearRing r ring p := by
  rw [ringDistance_lift ulp ring p hr]
  refine or_iff_right fun hin => hout ⟨ring, hring, ?_⟩
  exact (inside_zero ((g.rings_iff.1 hrings).1 ring hring) p).1 hin

variable (hn : nearestDistance ulp g p = (n : EReal))

include hn in
theorem nearest_nonneg : 0 ≤ n := by
  obtain ⟨ring, -, hle⟩ := (nearestDistance_le (EReal.coe_ne_top n)).1 (le_of_eq hn)
  exact ringDistance_nonneg hle

include hrings hout hn

/-- The rings that the planner intends to enter. -/
theorem intended_iff (hring : ring ∈ g.allowed) :
    (!(realFormat 0 ulp).lt (kEpsilon (realFormat 0 ulp))
      ((realFormat 0 ulp).abs ((realFormat 0 ulp).sub
        (ringDistance (realFormat 0 ulp) (lift p) (liftRing ring)) (nearestDistance ulp g p)))) =
      true ↔ NearRing n ring p := by
  have hleast : nearestDistance ulp g p ≤
      ringDistance (realFormat 0 ulp) (lift p) (liftRing ring) := by
    by_cases htop : ringDistance (realFormat 0 ulp) (lift p) (liftRing ring) = ⊤
    · rw [htop]
      exact le_top
    · exact (nearestDistance_le htop).2 ⟨ring, hring, le_refl _⟩
  rw [← ringDistance_le ulp hrings hout hring (nearest_nonneg hn), real_kEpsilon]
  rw [hn] at hleast ⊢
  generalize ringDistance (realFormat 0 ulp) (lift p) (liftRing ring) = x at *
  induction x with
  | bot => exact absurd (le_bot_iff.1 hleast) (EReal.coe_ne_bot n)
  | top =>
    have hsub : (realFormat 0 ulp).sub ⊤ (n : EReal) = ⊤ := EReal.top_sub_coe n
    have habs : (realFormat 0 ulp).abs ⊤ = ⊤ := by
      show (if (⊤ : EReal) < 0 then -⊤ else ⊤) = ⊤
      rw [if_neg not_top_lt]
    have hlt : (realFormat 0 ulp).lt ((0 : ℝ) : EReal) ⊤ = true :=
      decide_eq_true (EReal.coe_lt_top 0)
    rw [hsub, habs, hlt]
    constructor
    · intro h
      cases h
    · intro h
      exact absurd (top_le_iff.1 h) (EReal.coe_ne_top n)
  | coe r =>
    rw [EReal.coe_le_coe_iff] at hleast ⊢
    rw [real_sub, real_abs, real_lt, Bool.not_eq_true', decide_eq_false_iff_not, abs_pos,
      not_not, sub_eq_zero]
    constructor
    · intro h
      exact le_of_eq h
    · intro h
      exact le_antisymm h hleast

theorem nearest_iff : ring ∈ g.allowed ∧ NearRing n ring p ↔ g.IsNearest p ring := by
  have hn0 := nearest_nonneg hn
  constructor
  · rintro ⟨hring, hnear⟩
    refine ⟨hring, ?_⟩
    intro ring' hring' q' hq'
    have hle : n ≤ √(sqDist p q') := by
      rw [← EReal.coe_le_coe_iff, ← hn]
      refine (nearestDistance_le (EReal.coe_ne_top _)).2 ⟨ring', hring', ?_⟩
      exact (ringDistance_le ulp hrings hout hring' (Real.sqrt_nonneg _)).2
        ((nearRing_iff (Real.sqrt_nonneg _)).2 ⟨q', hq', le_refl _⟩)
    obtain ⟨q, hq, hqle⟩ := (nearRing_iff hn0).1 hnear
    exact ⟨q, hq, (Real.sqrt_le_sqrt_iff (sqDist_nonneg _ _)).1 (le_trans hqle hle)⟩
  · rintro ⟨hring, hleast⟩
    refine ⟨hring, ?_⟩
    obtain ⟨ring', hring', hle⟩ := (nearestDistance_le (EReal.coe_ne_top n)).1 (le_of_eq hn)
    obtain ⟨q', hq', hqle'⟩ :=
      (nearRing_iff hn0).1 ((ringDistance_le ulp hrings hout hring' hn0).1 hle)
    obtain ⟨q, hq, hqle⟩ := hleast ring' hring' q' hq'
    exact (nearRing_iff hn0).2 ⟨q, hq, le_trans (Real.sqrt_le_sqrt hqle) hqle'⟩

end Nearest

/-- The end of a leg that is outside every allowed ring: up to some point it is outside the nearest
ones, which it may touch, and from there on it is inside. -/
structure Ground.Enters (g : Ground) (p c : ℝ × ℝ) (limit r : ℝ) : Prop where
  unit : 0 ≤ r ∧ r ≤ 1
  reach : √(sqDist p (along p c r)) ≤ limit
  outside : {t | 0 ≤ t ∧ t < r ∧ g.InNearest p (along p c t)}.Finite
  inside : ∀ t, r ≤ t → t ≤ 1 → g.InNearest p (along p c t)

/-- What a leg from outside has passed: the run over the gaps of the nearest rings. -/
theorem terminal_run (hrings : g.Rings) {c : ℝ × ℝ} {limit : ℝ} (hout : ¬ InUnion g.allowed p)
    (h : g.geometry.terminal (realFormat 0 ulp) (lift p) (lift c) (limit : EReal) = true) :
    0 ≤ limit ∧ g.geometry.segmentClear (realFormat 0 ulp) (lift p) (lift c) = true ∧
      ∃ near : List (List (ℝ × ℝ)), (∀ ring, ring ∈ near ↔ g.IsNearest p ring) ∧
        ((cuts (realFormat 0 ulp) (lift p) (lift c) (near.map liftRing)).zip
          (cuts (realFormat 0 ulp) (lift p) (lift c) (near.map liftRing)).tail).foldlM
            (Geometry.enterStep (realFormat 0 ulp) (lift p) (lift c) (limit : EReal) fun q =>
              (near.map liftRing).any (inside (realFormat 0 ulp) q)) false = some true := by
  classical
  unfold Geometry.terminal at h
  rw [if_neg (fun hin => hout ((authorized_zero hrings p).1 hin))] at h
  change (if (!(realFormat 0 ulp).isFinite (nearestDistance ulp g p) ||
    (realFormat 0 ulp).lt (limit : EReal) (nearestDistance ulp g p)) = true then false else _) =
      true at h
  split at h
  · cases h
  next hreach =>
  rw [Bool.or_eq_true, not_or, Bool.not_eq_true', Bool.not_eq_false] at hreach
  have hfinite : nearestDistance ulp g p ≠ ⊤ ∧ nearestDistance ulp g p ≠ ⊥ :=
    of_decide_eq_true hreach.1
  obtain ⟨n, hn⟩ : ∃ n : ℝ, nearestDistance ulp g p = (n : EReal) :=
    ⟨_, (EReal.coe_toReal hfinite.1 hfinite.2).symm⟩
  have hlimit : 0 ≤ limit := by
    have hle := hreach.2
    rw [hn, real_lt, decide_eq_true_iff, not_lt] at hle
    exact le_trans (nearest_nonneg hn) hle
  have hintended : g.geometry.allowed.filter (fun ring =>
      !(realFormat 0 ulp).lt (kEpsilon (realFormat 0 ulp))
        ((realFormat 0 ulp).abs ((realFormat 0 ulp).sub
          (ringDistance (realFormat 0 ulp) (lift p) ring) (nearestDistance ulp g p)))) =
        (g.allowed.filter fun ring => decide (NearRing n ring p)).map liftRing := by
    show (g.allowed.map liftRing).filter _ = _
    rw [List.filter_map]
    refine congrArg (List.map liftRing) (List.filter_congr fun ring hring => ?_)
    rw [Bool.eq_iff_iff, decide_eq_true_iff]
    exact intended_iff hrings hout hn hring
  unfold nearestDistance at hintended
  dsimp only at h
  rw [hintended] at h
  split at h
  · cases h
  split at h
  · cases h
  next hanchor =>
  rw [Bool.or_eq_true, not_or, Bool.not_eq_true', Bool.not_eq_false] at hanchor
  refine ⟨hlimit, hanchor.2, g.allowed.filter fun ring => decide (NearRing n ring p), ?_, ?_⟩
  · intro ring
    rw [List.mem_filter, decide_eq_true_iff, nearest_iff hrings hout hn]
  · rw [Option.getD_eq_iff] at h
    exact h.resolve_right fun hnone => by cases hnone.2

theorem terminal_enters (hrings : g.Rings) {c : ℝ × ℝ} {limit : ℝ} (hout : ¬ InUnion g.allowed p)
    (h : g.geometry.terminal (realFormat 0 ulp) (lift p) (lift c) (limit : EReal) = true) :
    ∃ r, g.Enters p c limit r := by
  classical
  obtain ⟨hlimit, -, near, hnear, hrun⟩ := terminal_run hrings hout h
  have hlength : ∀ ring ∈ near, 3 ≤ ring.length := by
    intro ring hring
    exact (g.rings_iff.1 hrings).1 ring ((hnear ring).1 hring).1
  have hunion : ∀ q, InUnion near q ↔ g.InNearest p q := by
    intro q
    unfold InUnion Ground.InNearest
    simp only [hnear]
  have hinto : ∀ q, (near.map liftRing).any (inside (realFormat 0 ulp) (lift q)) =
      decide (InUnion near q) := by
    intro q
    rw [Bool.eq_iff_iff, decide_eq_true_iff, List.any_map, List.any_eq_true]
    exact exists_congr fun ring => and_congr_right fun hring =>
      (inside_lift ring q).trans (inside_zero (hlength ring hring) q)
  let into (e : ℝ × ℝ) : Bool := decide (InUnion near (along p c ((e.1 + e.2) / 2)))
  let far (e : ℝ × ℝ) : Bool := decide (limit < √(sqDist p (along p c e.2)))
  have hstep : ∀ (entered : Bool) (e : ℝ × ℝ),
      Geometry.enterStep (realFormat 0 ulp) (lift p) (lift c) (limit : EReal)
        (fun q => (near.map liftRing).any (inside (realFormat 0 ulp) q)) entered
        ((e.1 : EReal), (e.2 : EReal)) =
      if entered && !into e then none
      else if !into e && far e then none
      else some (entered || into e) := by
    intro entered e
    unfold Geometry.enterStep
    simp only [half_coe, interpolate_lift, hinto, distance_lift, real_lt]
    rfl
  have hgaps : (Breaks.gaps (places p c near)).foldlM (fun entered e =>
      if entered && !into e then none
      else if !into e && far e then none
      else some (entered || into e)) false = some true := by
    rw [cuts_lift, ← List.map_tail, List.zip_map, List.foldlM_map] at hrun
    rw [← hrun]
    unfold Breaks.gaps
    congr 1
    funext entered e
    exact (hstep entered e).symm
  obtain ⟨outs, ins, hsplit, hne, houts, hins⟩ := enter_run hgaps
  obtain ⟨r, hunit, hend, hafter, hbefore⟩ := (places_splits p c near).turn hsplit hne
  have hmem : ∀ e, e ∈ outs ∨ e ∈ ins → e ∈ Breaks.gaps (places p c near) := by
    intro e he
    rw [hsplit]
    exact List.mem_append.2 he
  refine ⟨r, hunit, ?_, ?_, ?_⟩
  · rcases hend with rfl | ⟨e, he, rfl⟩
    · rw [along_zero]
      unfold sqDist
      simpa using hlimit
    · exact not_lt.1 (of_decide_eq_false (houts e he).2)
  · refine (List.finite_toSet (places p c near)).subset ?_
    rintro t ⟨h0, hlt, hin⟩
    rcases hbefore t h0 hlt with hplace | ⟨e, he, hwithin⟩
    · exact hplace
    · -- inside the gap it would be inside at the middle
      obtain ⟨ring, hring, hregion⟩ := (hunion _).2 hin
      have hmiddle := region_same (hmem e (Or.inl he)) hring hwithin
        (Breaks.within_half (lt_trans hwithin.1 hwithin.2)) hregion
      exact absurd ⟨ring, hring, hmiddle⟩ (of_decide_eq_false (houts e he).1)
  · intro t hlow hhigh
    obtain ⟨e, he, ht⟩ := hafter t hlow hhigh
    obtain ⟨ring, hring, hregion⟩ := of_decide_eq_true (hins e he)
    exact (hunion _).1 ⟨ring, hring, region_gap (hmem e (Or.inr he)) hring hregion ht⟩

/-! ## The three tests -/

/-- The tests of a segment are exact, and a leg from outside enters the nearest rings once. -/
theorem segments_exact {g : Ground} (hg : g.Margins) (hrings : g.Rings) (a b : ℝ × ℝ) :
    (g.geometry.segmentAuthorized (realFormat 0 ulp) (lift a) (lift b) = true ↔
      ∀ p, OnSegment a b p → InUnion g.allowed p) ∧
    (g.geometry.segmentClear (realFormat 0 ulp) (lift a) (lift b) = true ↔
      ∀ p, OnSegment a b p → g.Free p) ∧
    ∀ limit : ℝ, g.geometry.authorized (realFormat 0 ulp) (lift a) = false →
      g.geometry.terminal (realFormat 0 ulp) (lift a) (lift b) (limit : EReal) = true →
        (∃ r, g.Enters a b limit r) ∧ ∀ p, OnSegment a b p → g.Free p := by
  refine ⟨segmentAuthorized_iff hrings a b, segmentClear_iff hg hrings a b, ?_⟩
  intro limit hauthorized hterminal
  have hout : ¬ InUnion g.allowed a := by
    intro hin
    rw [(authorized_zero hrings a).2 hin] at hauthorized
    cases hauthorized
  refine ⟨terminal_enters hrings hout hterminal, ?_⟩
  exact (segmentClear_iff hg hrings a b).1 (terminal_run hrings hout hterminal).2.1

/-- Two squares with a strip between them, and a fence that ends a tenth short of its middle. -/
def twoSquares : Ground where
  allowed := [[(0, 0), (1, 0), (1, 1), (0, 1)], [(2.0, 0), (3, 0), (3, 1), (2.0, 1)]]
  blocked := [[(1.5, 0.6), (2.0, 2.0), (1, 2.0)]]
  blockedMargins := [0.2]

/-- Both ends are authorized, and the middle of the strip is neither authorized nor clear. -/
theorem segments_exact_strip :
    twoSquares.geometry.segmentAuthorized (realFormat 0 0) (lift (1 / 2, 1 / 2))
        (lift (5 / 2, 1 / 2)) = false ∧
      twoSquares.geometry.segmentClear (realFormat 0 0) (lift (1 / 2, 1 / 2))
        (lift (5 / 2, 1 / 2)) = false := by
  have hmargins : twoSquares.Margins := by
    intro x hx
    cases List.mem_singleton.1 (show x ∈ [([(1.5, 0.6), (2.0, 2.0), (1, 2.0)], 0)] from hx)
    show (0 : ℝ) ≤ 0.2
    norm_num
  have hrings : twoSquares.Rings := by
    intro ring hring
    simp only [twoSquares, List.cons_append, List.nil_append, List.mem_cons, List.not_mem_nil,
      or_false] at hring
    rcases hring with rfl | rfl | rfl <;> decide
  have hon : OnSegment ((1 / 2, 1 / 2) : ℝ × ℝ) (5 / 2, 1 / 2) (3 / 2, 1 / 2) := by
    refine ⟨1 / 2, by norm_num, by norm_num, ?_⟩
    unfold along
    norm_num
  obtain ⟨hauthorized, hclear, -⟩ :=
    @segments_exact 0 _ hmargins hrings ((1 / 2, 1 / 2) : ℝ × ℝ) (5 / 2, 1 / 2)
  rw [← Bool.not_eq_true, ← Bool.not_eq_true, hauthorized, hclear]
  refine ⟨fun hall => ?_, fun hfree => ?_⟩
  · obtain ⟨ring, hring, hregion⟩ := hall _ hon
    have hbox : Polygon.InBox 0 ring (3 / 2, 1 / 2) := by
      rcases hregion with h | h
      · exact h.box
      · exact Polygon.box_of_oddAt h
    obtain ⟨v, hv, hright⟩ := hbox.right
    obtain ⟨w, hw, hleft⟩ := hbox.left
    rcases List.mem_cons.1 hring with rfl | hring
    · simp only [List.mem_cons, List.not_mem_nil, or_false] at hv
      rcases hv with rfl | rfl | rfl | rfl <;> norm_num at hright
    · rw [List.mem_singleton.1 hring] at hw
      simp only [List.mem_cons, List.not_mem_nil, or_false] at hw
      rcases hw with rfl | rfl | rfl | rfl <;> norm_num at hleft
  · have hring : Polygon.OnRing [(1.5, 0.6), (2.0, 2.0), (1, 2.0)] ((1.5, 0.6) : ℝ × ℝ) :=
      ⟨((1.5, 0.6), (2.0, 2.0)), List.mem_cons_of_mem _ List.mem_cons_self, 0, le_rfl, zero_le_one,
        (along_zero _ _).symm⟩
    have hfar := (hfree _ hon ([(1.5, 0.6), (2.0, 2.0), (1, 2.0)], 0.2)
      List.mem_cons_self).2 _ hring
    have hnear : √(sqDist ((3 / 2, 1 / 2) : ℝ × ℝ) (1.5, 0.6)) ≤ 0.2 := by
      refine Real.sqrt_le_iff.2 ⟨by norm_num, ?_⟩
      unfold sqDist
      norm_num
    exact absurd hfar (not_lt.2 hnear)

end

end Transit
end Mowgli
