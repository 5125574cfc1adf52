import Mowgli.Lib.Worklist
import Mowgli.Transit.Reals

/-!
# Connect — the preflight refuses only what is not connected

`boundsMayConnect` walks from ring to ring over boxes that touch. `boundsSearch` is the same loop
with its flags and its stack by index, so that what is pushed can be counted;
`boundsMayConnect_eq` says that it is.

Why nothing is refused that a path connects: the box of each ring is closed and holds, with the
tolerance, all that is inside it. The boxes of the rings that were reached and the boxes of the
others do not meet, so a connected path that starts among the first stays there.
-/

namespace Mowgli
namespace Transit

open Segment

variable {D : Type} (d : Format D)

namespace Geometry

variable (g : Geometry D) (start goal : Point D)

def ringAt (i : Nat) : Ring D := g.allowed.getD i []

/-- A ring whose box is not remote from that of another. -/
def touches (i j : Nat) : Bool :=
  !remoteRing d (bounds d (g.ringAt i)).1 (bounds d (g.ringAt i)).2 (g.ringAt j)
    (d.mul (d.lit 2) (kEpsilon d))

/-- The loop over the rings that hold the start, up to one that holds the goal too. -/
def startRings : List Nat → Worklist.Walk → Bool × Worklist.Walk
  | [], w => (false, w)
  | i :: rest, w =>
    if inside d start (g.ringAt i) then
      if inside d goal (g.ringAt i) then (true, w) else startRings rest (w.push i)
    else startRings rest w

/-- The preflight, and the walk it leaves. -/
def boundsSearch : Bool × Worklist.Walk :=
  if g.allowed.length ≤ 1 then (!g.allowed.isEmpty, .fresh)
  else
    let first := g.startRings d start goal (List.range g.allowed.length) .fresh
    if first.1 then (true, first.2)
    else
      Worklist.search (fun i => inside d goal (g.ringAt i)) (g.touches d) g.allowed.length first.2

/-! ## The same search, ring by ring -/

theorem startRings_eq (nodes : List Nat) (w : Worklist.Walk) :
    ((g.startRings d start goal nodes w).1 = true ∧
      nodes.any (fun i => inside d start (g.ringAt i) && inside d goal (g.ringAt i)) = true) ∨
    (g.startRings d start goal nodes w =
        (false, w.pushAll (nodes.filter (fun i => inside d start (g.ringAt i)))) ∧
      nodes.any (fun i => inside d start (g.ringAt i) && inside d goal (g.ringAt i)) = false) := by
  induction nodes generalizing w with
  | nil => exact Or.inr ⟨by rw [startRings, List.filter_nil, Worklist.Walk.pushAll_nil], rfl⟩
  | cons i rest ih =>
    rw [startRings]
    cases hstart : inside d start (g.ringAt i) with
    | false =>
      rw [if_neg (by simp), List.any_cons, hstart, Bool.false_and, Bool.false_or,
        List.filter_cons_of_neg (by simp [hstart])]
      exact ih w
    | true =>
      rw [if_pos rfl, List.any_cons, hstart, Bool.true_and,
        List.filter_cons_of_pos (p := fun i => inside d start (g.ringAt i)) hstart,
        Worklist.Walk.pushAll_cons]
      cases hgoal : inside d goal (g.ringAt i) with
      | true => exact Or.inl ⟨by rw [if_pos rfl], rfl⟩
      | false =>
        rw [if_neg (by simp), Bool.false_or]
        exact ih (w.push i)

theorem map_ringAt_range : (List.range g.allowed.length).map g.ringAt = g.allowed := by
  apply List.ext_getElem
  · simp
  · intro i h1 h2
    simp [ringAt, List.getElem?_eq_getElem h2]

theorem filter_range (p : Ring D → Bool) :
    ((List.range g.allowed.length).filter (fun i => p (g.ringAt i))).map g.ringAt =
      g.allowed.filter p := by
  conv_rhs => rw [← g.map_ringAt_range]
  rw [List.filter_map]
  rfl

theorem overlapping_map (remote : Bool) (i : Nat) (nodes : List Nat) :
    overlapping d remote (g.ringAt i) (nodes.map g.ringAt) =
      (nodes.filter (fun j => (!g.touches d i j) == remote)).map g.ringAt := by
  unfold overlapping
  rw [List.filter_map]
  congr 1
  apply List.filter_congr
  intro j _
  unfold touches
  rw [Bool.not_not]
  rfl

theorem reaches_eq (w : Worklist.Walk) :
    reaches d goal ((Worklist.unvisited g.allowed.length w).map g.ringAt)
        (w.pending.map g.ringAt) =
      (Worklist.search (fun i => inside d goal (g.ringAt i)) (g.touches d) g.allowed.length
        w).1 := by
  induction w using Worklist.search.induct (fun i => inside d goal (g.ringAt i)) (g.touches d)
      g.allowed.length with
  | case1 w hpending =>
    rw [Worklist.search_nil _ _ _ hpending, hpending, List.map_nil, reaches]
  | case2 w current rest hpending hfound =>
    rw [Worklist.search_cons _ _ _ hpending, if_pos hfound, hpending, List.map_cons, reaches,
      if_pos hfound]
  | case3 w current rest hpending hfound ih =>
    rw [Worklist.search_cons _ _ _ hpending, if_neg hfound, ← ih, hpending, List.map_cons, reaches,
      if_neg hfound, overlapping_map, overlapping_map, Worklist.unvisited_expand,
      Worklist.expand_eq _ _ List.nodup_range, Worklist.fresh_eq]
    congr 1
    · congr 1
      apply List.filter_congr
      intro j _
      cases g.touches d current j <;> rfl
    · have hfresh : (Worklist.unvisited g.allowed.length w).filter
          (fun j => (!g.touches d current j) == false) =
          (Worklist.unvisited g.allowed.length { w with pending := rest }).filter
            (g.touches d current) := by
        apply List.filter_congr
        intro j _
        cases g.touches d current j <;> rfl
      simp only [Worklist.Walk.pushAll, List.map_append, List.map_reverse, hfresh]

theorem boundsMayConnect_eq :
    g.boundsMayConnect d start goal = (g.boundsSearch d start goal).1 := by
  unfold boundsMayConnect boundsSearch
  by_cases hsmall : g.allowed.length ≤ 1
  · rw [if_pos hsmall, if_pos hsmall]
  · rw [if_neg hsmall, if_neg hsmall]
    have hany : g.allowed.any (fun ring => inside d start ring && inside d goal ring) =
        (List.range g.allowed.length).any
          (fun i => inside d start (g.ringAt i) && inside d goal (g.ringAt i)) := by
      conv_lhs => rw [← g.map_ringAt_range]
      rw [List.any_map]
      rfl
    rcases g.startRings_eq d start goal (List.range g.allowed.length) .fresh with
      ⟨hfirst, hboth⟩ | ⟨hfirst, hboth⟩
    · rw [hany, hboth]
      simp only [hfirst, if_true, Bool.true_or]
    · rw [hany, hboth, Bool.false_or]
      simp only [hfirst, Bool.false_eq_true, if_false]
      rw [← g.reaches_eq]
      congr 1
      · have hunvisited : Worklist.unvisited g.allowed.length (Worklist.Walk.fresh.pushAll
            ((List.range g.allowed.length).filter (fun i => inside d start (g.ringAt i)))) =
            (List.range g.allowed.length).filter (fun i => !inside d start (g.ringAt i)) := by
          unfold Worklist.unvisited
          apply List.filter_congr
          intro i hi
          have hmem : ((List.range g.allowed.length).filter
              (fun i => inside d start (g.ringAt i))).contains i =
              inside d start (g.ringAt i) := by
            rw [Bool.eq_iff_iff, List.contains_iff_mem, List.mem_filter]
            exact and_iff_right hi
          simp only [Worklist.Walk.pushAll, Worklist.Walk.fresh, hmem, Bool.false_or]
        rw [hunvisited, g.filter_range (fun ring => !inside d start ring)]
      · simp only [Worklist.Walk.pushAll, Worklist.Walk.fresh, List.append_nil, List.map_reverse]
        rw [g.filter_range (fun ring => inside d start ring)]

/-! ## What the walk says -/

theorem boundsSearch_sound :
    Worklist.Sound g.allowed.length (g.boundsSearch d start goal).2 := by
  have hfirst : ∀ (nodes : List Nat) (w : Worklist.Walk), nodes.Nodup →
      (∀ i ∈ nodes, i < g.allowed.length ∧ w.visited i = false) →
      Worklist.Sound g.allowed.length w →
      Worklist.Sound g.allowed.length (g.startRings d start goal nodes w).2 := by
    intro nodes
    induction nodes with
    | nil =>
      intro w _ _ hw
      exact hw
    | cons i rest ih =>
      intro w hnodup hnodes hw
      obtain ⟨hi, hrest⟩ := List.nodup_cons.1 hnodup
      have hnew := hnodes i List.mem_cons_self
      rw [startRings]
      split
      · split
        · exact hw
        · apply ih (w.push i) hrest _ (hw.push hnew.1 hnew.2)
          intro k hk
          obtain ⟨hlt, hvisited⟩ := hnodes k (List.mem_cons_of_mem _ hk)
          have hne : (k == i) = false := by
            apply beq_false_of_ne
            intro heq
            exact hi (heq ▸ hk)
          exact ⟨hlt, by simp only [Worklist.Walk.push, hvisited, hne, Bool.or_false]⟩
      · exact ih w hrest (fun k hk => hnodes k (List.mem_cons_of_mem _ hk)) hw
  unfold boundsSearch
  split
  · exact Worklist.Sound.fresh _
  · have hstart := hfirst (List.range g.allowed.length) .fresh List.nodup_range
      (fun i hi => ⟨List.mem_range.1 hi, rfl⟩) (Worklist.Sound.fresh _)
    simp only
    split
    · exact hstart
    · exact hstart.search _ _

/-- A refusal leaves a set of rings that holds every ring of the start, no ring of the goal, and
every ring that touches one of them. -/
theorem boundsSearch_refuses (hmany : ¬ g.allowed.length ≤ 1)
    (h : (g.boundsSearch d start goal).1 = false) :
    (∀ i < g.allowed.length, inside d start (g.ringAt i) = true →
      i ∈ (g.boundsSearch d start goal).2.pushed) ∧
    ∀ i ∈ (g.boundsSearch d start goal).2.pushed, inside d goal (g.ringAt i) = false ∧
      ∀ j < g.allowed.length, g.touches d i j = true →
        j ∈ (g.boundsSearch d start goal).2.pushed := by
  have hsound := g.boundsSearch_sound d start goal
  unfold boundsSearch at h hsound ⊢
  rw [if_neg hmany] at h hsound ⊢
  rcases g.startRings_eq d start goal (List.range g.allowed.length) .fresh with
    ⟨hfirst, -⟩ | ⟨hfirst, -⟩
  · simp only [hfirst, if_true] at h
    cases h
  · simp only [hfirst, Bool.false_eq_true, if_false] at h hsound ⊢
    have hw : Worklist.Sound g.allowed.length (Worklist.Walk.fresh.pushAll
        ((List.range g.allowed.length).filter (fun i => inside d start (g.ringAt i)))) := by
      refine ⟨?_, ?_, ?_, ?_⟩
      · simp only [Worklist.Walk.pushAll, Worklist.Walk.fresh, List.append_nil]
        exact List.nodup_reverse.2 (List.nodup_range.filter _)
      · intro i hi
        simp only [Worklist.Walk.pushAll, Worklist.Walk.fresh, List.append_nil,
          List.mem_reverse, List.mem_filter, List.mem_range] at hi
        exact hi.1
      · intro i
        simp [Worklist.Walk.pushAll, Worklist.Walk.fresh]
      · intro i hi
        exact hi
    have hexpanded : Worklist.Expanded (fun i => inside d goal (g.ringAt i)) (g.touches d)
        g.allowed.length (Worklist.Walk.fresh.pushAll
          ((List.range g.allowed.length).filter (fun i => inside d start (g.ringAt i)))) :=
      fun i hi => Or.inl hi
    obtain ⟨hsub, hclosed⟩ := Worklist.search_closed hw hexpanded h
    refine ⟨?_, hclosed⟩
    intro i hi hstart
    apply hsub
    simp only [Worklist.Walk.pushAll, Worklist.Walk.fresh, List.append_nil, List.mem_reverse,
      List.mem_filter, List.mem_range]
    exact ⟨hi, hstart⟩

end Geometry

/-! ## Paths -/

noncomputable section

variable {ε : ℝ} {ulp : ℝ → NNReal}

theorem ringAt_lift (g : Ground) (i : ℕ) :
    g.geometry.ringAt i = liftRing (g.allowed.getD i []) := by
  unfold Geometry.ringAt Ground.geometry
  rw [List.getD_eq_getElem?_getD, List.getD_eq_getElem?_getD, List.getElem?_map]
  cases g.allowed[i]? with
  | none => rfl
  | some ring => rfl

/-- Two rings whose boxes have a point in common, with the tolerance of each, are not remote. -/
theorem touches_of_boxes (hε : 0 ≤ ε) (g : Ground) {i j : ℕ} {p : ℝ × ℝ}
    (hi : Polygon.InBox ε (g.allowed.getD i []) p)
    (hj : Polygon.InBox ε (g.allowed.getD j []) p) :
    g.geometry.touches (realFormat ε ulp) i j = true := by
  obtain ⟨lo, hi', hbounds, hbox⟩ := bounds_lift ε ulp hi.ne_nil
  obtain ⟨⟨h1, h2⟩, h3, h4⟩ := hbox.inBox_iff.1 hi
  obtain ⟨v, hv, -⟩ := hi.left
  obtain ⟨⟨hx1, hx2⟩, hy1, hy2⟩ := hbox.within v hv
  have hlohi : lo.1 ≤ hi'.1 ∧ lo.2 ≤ hi'.2 := ⟨le_trans hx1 hx2, le_trans hy1 hy2⟩
  unfold Geometry.touches
  rw [ringAt_lift, ringAt_lift, hbounds, Bool.not_eq_true']
  by_contra hremote
  rw [Bool.not_eq_false, real_lit_two, real_kEpsilon, real_mul] at hremote
  -- the point of the first box that is nearest to the common point
  have hclamp : ∀ x lo hi : ℝ, lo - ε ≤ x → x ≤ hi + ε → lo ≤ hi →
      (min lo hi ≤ max lo (min x hi) ∧ max lo (min x hi) ≤ max lo hi) ∧
        max lo (min x hi) - ε ≤ x ∧ x ≤ max lo (min x hi) + ε := by
    intro x lo hi hl hh hlh
    rw [min_eq_left hlh, max_eq_right hlh]
    refine ⟨⟨le_max_left _ _, max_le hlh (min_le_right _ _)⟩, ?_, ?_⟩
    · rw [sub_le_iff_le_add]
      exact max_le (by linarith) (le_trans (min_le_left _ _) (by linarith))
    · rcases min_choice x hi with h | h
      · rw [h]
        linarith [le_max_right lo x]
      · rw [h]
        linarith [le_max_right lo hi]
  obtain ⟨hqx, hqx1, hqx2⟩ := hclamp p.1 lo.1 hi'.1 h1 h2 hlohi.1
  obtain ⟨hqy, hqy1, hqy2⟩ := hclamp p.2 lo.2 hi'.2 h3 h4 hlohi.2
  apply remoteRing_lift hj.ne_nil hremote
    (q := (max lo.1 (min p.1 hi'.1), max lo.2 (min p.2 hi'.2))) hqx hqy
  have hdouble : max 0 (2 * ε) = 2 * ε := max_eq_right (by linarith)
  rw [hdouble]
  obtain ⟨⟨a, ha, hpa⟩, ⟨b, hb, hpb⟩, ⟨c, hc, hpc⟩, ⟨e, he, hpe⟩⟩ := hj
  refine ⟨⟨a, ha, ?_⟩, ⟨b, hb, ?_⟩, ⟨c, hc, ?_⟩, ⟨e, he, ?_⟩⟩
  · show a.1 - 2 * ε ≤ max lo.1 (min p.1 hi'.1)
    linarith
  · show max lo.1 (min p.1 hi'.1) ≤ b.1 + 2 * ε
    linarith
  · show c.2 - 2 * ε ≤ max lo.2 (min p.2 hi'.2)
    linarith
  · show max lo.2 (min p.2 hi'.2) ≤ e.2 + 2 * ε
    linarith

/-- The points of a polyline. -/
def OnPolyline (vertices : List (ℝ × ℝ)) (p : ℝ × ℝ) : Prop :=
  p ∈ vertices ∨ ∃ e ∈ vertices.zip vertices.tail, OnSegment e.1 e.2 p

/-- A polyline within two closed sets that do not meet stays in the one it starts in. -/
theorem polyline_stays {A B : Set (ℝ × ℝ)} (hA : IsClosed A) (hB : IsClosed B)
    (hdisjoint : ∀ p ∈ A, p ∉ B) (first : ℝ × ℝ) (rest : List (ℝ × ℝ))
    (hcover : ∀ p, OnPolyline (first :: rest) p → p ∈ A ∨ p ∈ B) (hfirst : first ∈ A) :
    (first :: rest).getLast (List.cons_ne_nil _ _) ∈ A := by
  induction rest generalizing first with
  | nil => exact hfirst
  | cons next rest ih =>
    rw [List.getLast_cons (List.cons_ne_nil _ _)]
    apply ih next
    · intro p hp
      apply hcover
      rcases hp with hp | ⟨e, he, hon⟩
      · exact Or.inl (List.mem_cons_of_mem _ hp)
      · refine Or.inr ⟨e, ?_, hon⟩
        exact List.mem_cons_of_mem _ he
    · apply Polygon.segment_stays hA hB hdisjoint _ hfirst
      intro p hp
      apply hcover
      exact Or.inr ⟨(first, next), List.mem_cons_self, hp⟩

/-- What a path over authorized ground connects is not refused, and each ring is pushed once. -/
theorem boundsMayConnect_complete (ε : NNReal) (ulp : ℝ → NNReal) (g : Ground)
    (start goal : ℝ × ℝ) :
    ((∃ vertices : List (ℝ × ℝ), vertices.head? = some start ∧ vertices.getLast? = some goal ∧
        ∀ p, OnPolyline vertices p →
          g.geometry.authorized (realFormat ε ulp) (lift p) = true) →
      g.geometry.boundsMayConnect (realFormat ε ulp) (lift start) (lift goal) = true) ∧
    (g.geometry.boundsSearch (realFormat ε ulp) (lift start) (lift goal)).1 =
      g.geometry.boundsMayConnect (realFormat ε ulp) (lift start) (lift goal) ∧
    (g.geometry.boundsSearch (realFormat ε ulp) (lift start) (lift goal)).2.pushed.Nodup ∧
    ∀ i ∈ (g.geometry.boundsSearch (realFormat ε ulp) (lift start) (lift goal)).2.pushed,
      i < g.allowed.length := by
  have hsound := g.geometry.boundsSearch_sound (realFormat ε ulp) (lift start) (lift goal)
  have hlength : g.geometry.allowed.length = g.allowed.length := List.length_map _
  rw [hlength] at hsound
  refine ⟨?_, (g.geometry.boundsMayConnect_eq _ _ _).symm, hsound.nodup, hsound.lt⟩
  intro hpath
  obtain ⟨vertices, hhead, hlast, hauthorized⟩ := hpath
  rw [g.geometry.boundsMayConnect_eq]
  obtain ⟨first, rest, rfl⟩ : ∃ first rest, vertices = first :: rest := by
    cases vertices with
    | nil => cases hhead
    | cons first rest => exact ⟨first, rest, rfl⟩
  obtain rfl : first = start := Option.some.inj hhead
  -- every point of the path is inside some ring
  have hinside : ∀ p, OnPolyline (first :: rest) p → ∃ i < g.geometry.allowed.length,
      inside (realFormat ε ulp) (lift p) (g.geometry.ringAt i) = true := by
    intro p hp
    obtain ⟨ring, hmem, hin⟩ := List.any_eq_true.1 (hauthorized p hp)
    obtain ⟨i, hi, heq⟩ := List.getElem_of_mem hmem
    refine ⟨i, hi, ?_⟩
    unfold Geometry.ringAt
    rw [List.getD_eq_getElem?_getD, List.getElem?_eq_getElem hi, heq]
    exact hin
  have hbox : ∀ p i, inside (realFormat ε ulp) (lift p) (g.geometry.ringAt i) = true →
      Polygon.InBox ε (g.allowed.getD i []) p := by
    intro p i hin
    rw [ringAt_lift, inside_lift] at hin
    exact hin.box ε.2
  by_contra hrefused
  rw [Bool.not_eq_true] at hrefused
  have hstart := hinside first (Or.inl List.mem_cons_self)
  by_cases hsmall : g.geometry.allowed.length ≤ 1
  · unfold Geometry.boundsSearch at hrefused
    rw [if_pos hsmall] at hrefused
    obtain ⟨i, hi, -⟩ := hstart
    have hempty : g.geometry.allowed = [] := by simpa using hrefused
    rw [hempty] at hi
    exact Nat.not_lt_zero i hi
  · obtain ⟨hstarts, hclosed⟩ := g.geometry.boundsSearch_refuses _ _ _ hsmall hrefused
    generalize (g.geometry.boundsSearch (realFormat ε ulp) (lift first) (lift goal)).2.pushed = pushed
      at hstarts hclosed
    have hstays := polyline_stays
      (A := ⋃ i ∈ {i | i ∈ pushed}, {p | Polygon.InBox ε (g.allowed.getD i []) p})
      (B := ⋃ i ∈ {i | i < g.geometry.allowed.length ∧ i ∉ pushed},
        {p | Polygon.InBox ε (g.allowed.getD i []) p})
      ((List.finite_toSet pushed).isClosed_biUnion
        (fun i _ => Polygon.isClosed_inBox ε (g.allowed.getD i [])))
      (((Set.finite_lt_nat g.geometry.allowed.length).subset (fun i hi => hi.1)).isClosed_biUnion
        (fun i _ => Polygon.isClosed_inBox ε (g.allowed.getD i [])))
      ?_ first rest ?_ ?_
    · -- the goal is in the box of a ring that was pushed, and inside one that was not
      have hgoal : (first :: rest).getLast (List.cons_ne_nil _ _) = goal := by
        rw [List.getLast?_eq_some_getLast (List.cons_ne_nil _ _)] at hlast
        exact Option.some.inj hlast
      have hmem : goal ∈ first :: rest := hgoal ▸ List.getLast_mem _
      rw [hgoal] at hstays
      obtain ⟨j, hj, hgoalj⟩ := hinside goal (Or.inl hmem)
      simp only [Set.mem_iUnion, Set.mem_ofPred_eq, exists_prop] at hstays
      obtain ⟨i, hi, hini⟩ := hstays
      have hpushed : j ∈ pushed := (hclosed i hi).2 j hj
        (touches_of_boxes ε.2 g hini (hbox goal j hgoalj))
      rw [(hclosed j hpushed).1] at hgoalj
      cases hgoalj
    · intro p hA hB
      simp only [Set.mem_iUnion, Set.mem_ofPred_eq, exists_prop] at hA hB
      obtain ⟨i, hi, hini⟩ := hA
      obtain ⟨j, ⟨hj, hout⟩, hinj⟩ := hB
      exact hout ((hclosed i hi).2 j hj (touches_of_boxes ε.2 g hini hinj))
    · intro p hp
      obtain ⟨i, hi, hin⟩ := hinside p hp
      simp only [Set.mem_iUnion, Set.mem_ofPred_eq, exists_prop]
      by_cases hmem : i ∈ pushed
      · exact Or.inl ⟨i, hmem, hbox p i hin⟩
      · exact Or.inr ⟨i, ⟨hi, hmem⟩, hbox p i hin⟩
    · obtain ⟨i, hi, hin⟩ := hstart
      simp only [Set.mem_iUnion, Set.mem_ofPred_eq, exists_prop]
      exact ⟨i, hstarts i hi hin, hbox first i hin⟩

end

end Transit
end Mowgli
