import Mathlib.Algebra.Order.Floor.Div
import Mathlib.Analysis.SpecialFunctions.Complex.Arg
import Mowgli.Nav.GoalChecker

/-!
# Driven — a coverage goal is not reached without driving the path

The cursor moves only with an accepted query, by a bounded number of poses, and an accepted query
is some way from the one before it. So the poses behind the cursor count the queries that must
have been made, and a robot that stands still is told the same as often as it asks.
-/

namespace Mowgli
namespace Nav

open Trace

variable {K : Type} [Field K] [LinearOrder K] (maths : Maths K) (p : Params K)

/-! ## What a run shows -/

/-- A reset, or a plan that is taken for a new one. -/
def Entry.restarts (e : Entry K) : Bool :=
  match e.event with
  | .reset => true
  | .path msg => !msg.poses.isEmpty && e.before.isNew maths msg
  | .query _ => false

def Entry.accepted (e : Entry K) : Option (Point K) :=
  match e.event with
  | .query q => e.before.acceptedQuery maths p q
  | _ => none

/-- Where the queries were that have been accepted since the last restart, newest first. -/
def acceptedSince : List (Entry K) → List (Point K)
  | [] => []
  | e :: past =>
    if e.restarts maths then []
    else (e.accepted maths p).elim (acceptedSince past) fun query => query :: acceptedSince past

theorem acceptedSince_cons (e : Entry K) (past : List (Entry K)) :
    acceptedSince maths p (e :: past) =
      if e.restarts maths then []
      else (e.accepted maths p).elim (acceptedSince maths p past)
        fun query => query :: acceptedSince maths p past := rfl

/-- At least the least motion apart. -/
def Apart (later earlier : Point K) : Prop :=
  kMinProgressQueryMotionM ≤ distance maths later earlier

/-- The path left beyond the projection of the robot onto the segment after the cursor. -/
def LeftWithin (s : Checker K) (robot : Point K) (bound : K) : Prop :=
  let arc := cumulativeArcLength maths s.pathPoses
  let last := s.pathPoses.length - 1
  let reached := arcAt arc s.maxReachedIndex + s.reachedAlong robot
  arcAt arc s.maxReachedIndex ≤ reached ∧
    reached ≤ arcAt arc (min (s.maxReachedIndex + 1) last) ∧ arcAt arc last - reached ≤ bound

structure Driven (e : Entry K) (past : List (Entry K)) : Prop where
  kept : e.before.maxReachedIndex ≤ e.after.maxReachedIndex ∨ e.restarts maths = true
  bounded : ∀ q, e.event = .query q →
    e.after.maxReachedIndex ≤ e.before.maxReachedIndex + p.maxIdxAdvancePerCall
  still : ∀ q pose last, e.event = .query q → p.shortPathPoses < e.before.pathPoses.length →
    e.before.progressPose p q = some pose → e.before.lastProgressQuery = some last →
      distance maths pose.position last < kMinProgressQueryMotionM → e.after = e.before
  untransformed : ∀ q, e.event = .query q → p.shortPathPoses < e.before.pathPoses.length →
    e.before.progressPose p q = none → e.after = e.before
  repeated : ∀ q q', e.event = .query q → p.shortPathPoses < e.before.pathPoses.length →
    q'.pose = q.pose → q'.goal = q.goal →
      e.before.progressPose p q' = e.before.progressPose p q →
        (e.before.isGoalReached maths p q).2 = false →
          (e.after.isGoalReached maths p q').2 = false
  reached : ∀ q, e.event = .query q → p.shortPathPoses < e.before.pathPoses.length →
    (e.before.isGoalReached maths p q).2 = true →
      (∃ pose, e.before.progressPose p q = some pose ∧
        LeftWithin maths e.after pose.position (max 1 p.xyGoalTolerance)) ∧
        distance maths q.pose.position q.goal.position ≤ p.xyGoalTolerance
  counted : e.before.maxReachedIndex ⌈/⌉ p.maxIdxAdvancePerCall ≤
      (acceptedSince maths p past).length ∧
    e.after.maxReachedIndex ⌈/⌉ p.maxIdxAdvancePerCall ≤ (acceptedSince maths p (e :: past)).length
  spaced : (acceptedSince maths p (e :: past)).IsChain (Apart maths)
  fresh : e.restarts maths = true → e.after.maxReachedIndex = 0 ∧
    e.after.pending.index = none ∧ e.after.pending.originOffsetM = none ∧
      e.after.lastProgressQuery = none
  /-- Any other plan, however much it differs, is taken for the old one. -/
  republished : ∀ msg, e.event = .path msg → e.restarts maths = false →
    e.after.maxReachedIndex = e.before.maxReachedIndex ∧ e.after.pending = e.before.pending ∧
      e.after.lastProgressQuery = e.before.lastProgressQuery

/-! ## The search -/

section Search

variable {p} (s : Checker K) (query : Point K)

theorem nearer_cases (best : Option K × Nat) (i : Nat) :
    (s.nearer query best i).2 = best.2 ∨ (s.nearer query best i).2 = i := by
  unfold Checker.nearer
  dsimp only
  split
  · exact .inr rfl
  · split
    · exact .inr rfl
    · exact .inl rfl

/-- The best index is one of the window, or what it was at first. -/
theorem foldl_nearer (start left : Nat) (best : Option K × Nat) :
    ((List.range' start left).foldl (s.nearer query) best).2 = best.2 ∨
      ((List.range' start left).foldl (s.nearer query) best).2 < start + left := by
  induction left generalizing start best with
  | zero => exact .inl rfl
  | succ left ih =>
    rw [List.range'_succ, List.foldl_cons]
    rcases ih (start + 1) (s.nearer query best start) with h | h
    · rw [h]
      rcases nearer_cases s query best start with h | h
      · exact .inl h
      · rw [h]
        exact .inr (by omega)
    · exact .inr (by omega)

theorem bestIdx_cases :
    s.bestIdx p query = s.maxReachedIndex ∨ s.bestIdx p query < s.searchEnd p := by
  unfold Checker.bestIdx
  rcases foldl_nearer s query s.searchStart (s.searchEnd p - s.searchStart)
    (none, s.maxReachedIndex) with h | h
  · exact .inl h
  · by_cases hle : s.searchStart ≤ s.searchEnd p
    · exact .inr (by omega)
    · -- an empty window
      left
      rw [Nat.sub_eq_zero_of_le (by omega)]
      rfl

omit [LinearOrder K] in
theorem searchEnd_le : s.searchEnd p ≤ s.maxReachedIndex + p.maxIdxAdvancePerCall + 1 ∧
    s.searchEnd p ≤ s.pathPoses.length := by
  have hmod := Nat.mod_le (s.searchStart + p.maxIdxAdvancePerCall + 1) 18446744073709551616
  have hstart : s.searchStart ≤ s.maxReachedIndex := Nat.min_le_left _ _
  refine ⟨?_, Nat.min_le_right _ _⟩
  refine Nat.le_trans (Nat.min_le_left _ _) ?_
  omega

end Search

section Advance

variable {p} (s : Checker K) (pose : Pose K)

/-- An accepted query changes the cursor and the evidence, and is remembered. -/
theorem advance_spec : ∃ index pending, s.advance maths p pose =
    { s with
      maxReachedIndex := index
      pending := pending
      lastProgressQuery := some pose.position } ∧
    s.maxReachedIndex ≤ index ∧ index ≤ s.maxReachedIndex + p.maxIdxAdvancePerCall ∧
    (index = s.maxReachedIndex ∨ index < s.pathPoses.length) := by
  unfold Checker.advance
  dsimp only
  -- whatever the evidence is
  generalize (if s.bestIdx p pose.position = s.searchBoundary p ∧
      s.searchStart < s.searchBoundary p ∧ s.pathArcM.length = s.pathPoses.length then
    recover maths s.pathPoses s.pathArcM s.pending s.searchStart (s.searchBoundary p)
      s.lastProgressQuery pose
    else (s.pending.reset, false)) = evidence
  split
  · next h =>
    refine ⟨_, _, rfl, Nat.le_of_lt h.1, ?_⟩
    obtain ⟨hwindow, hpath⟩ := searchEnd_le (p := p) s
    rcases bestIdx_cases (p := p) s pose.position with hsame | hlt
    · rw [hsame] at h
      exact absurd h.1 (Nat.lt_irrefl _)
    · exact ⟨by omega, .inr (by omega)⟩
  · exact ⟨_, _, rfl, Nat.le_refl _, Nat.le_add_right _ _, .inl rfl⟩

end Advance

/-! ## A call -/

section Call

variable {p} {s : Checker K} {q : Query K}

/-- On a long plan a call does nothing, or is accepted. -/
theorem isGoalReached_cases (hlong : p.shortPathPoses < s.pathPoses.length) :
    (s.progressPose p q = none ∧ s.isGoalReached maths p q = (s, false)) ∨
      ∃ pose, s.progressPose p q = some pose ∧
        ((s.queryMoved maths pose.position = true ∧
            s.acceptedQuery maths p q = some pose.position ∧
            s.isGoalReached maths p q = (s.advance maths p pose,
              (s.advance maths p pose).completes maths p pose.position q)) ∨
          (s.queryMoved maths pose.position = false ∧ s.acceptedQuery maths p q = none ∧
            s.isGoalReached maths p q = (s, s.completes maths p pose.position q))) := by
  have hsome : ¬ s.pathPoses.isEmpty = true := by
    intro hempty
    rw [List.isEmpty_iff.1 hempty] at hlong
    exact Nat.not_lt_zero _ hlong
  unfold Checker.isGoalReached Checker.acceptedQuery
  rw [if_neg hsome, if_neg (Nat.not_le_of_lt hlong), if_pos hlong]
  cases hpose : s.progressPose p q with
  | none => exact .inl ⟨rfl, rfl⟩
  | some pose =>
    refine .inr ⟨pose, rfl, ?_⟩
    cases hmoved : s.queryMoved maths pose.position with
    | true => exact .inl ⟨rfl, by simp [hmoved], by simp [hmoved]⟩
    | false => exact .inr ⟨rfl, by simp [hmoved], by simp [hmoved]⟩

/-- On any other it leaves the cursor and what goes with it. -/
theorem isGoalReached_short (hshort : s.pathPoses.length ≤ p.shortPathPoses) :
    s.acceptedQuery maths p q = none ∧
      ∃ first, (s.isGoalReached maths p q).1 = { s with emptyPathFirstCall := first } := by
  refine ⟨if_neg (Nat.not_lt_of_le hshort), ?_⟩
  unfold Checker.isGoalReached
  split
  · split
    · exact ⟨_, rfl⟩
    · split
      · exact ⟨_, rfl⟩
      · exact ⟨_, rfl⟩
  · exact ⟨_, rfl⟩

/-- A call moves the cursor forward, and not far. -/
theorem query_index (q : Query K) :
    s.maxReachedIndex ≤ (s.step maths p (.query q)).maxReachedIndex ∧
      (s.step maths p (.query q)).maxReachedIndex ≤ s.maxReachedIndex + p.maxIdxAdvancePerCall := by
  have hstep : s.step maths p (.query q) = (s.isGoalReached maths p q).1 := rfl
  rw [hstep]
  by_cases hlong : p.shortPathPoses < s.pathPoses.length
  · rcases isGoalReached_cases maths (q := q) hlong with
      ⟨-, hcall⟩ | ⟨pose, -, ⟨-, -, hcall⟩ | ⟨-, -, hcall⟩⟩
    · rw [hcall]
      exact ⟨Nat.le_refl _, Nat.le_add_right _ _⟩
    · obtain ⟨index, pending, hadvance, hlow, hhigh, -⟩ :=
        advance_spec maths (p := p) s pose
      rw [hcall, hadvance]
      exact ⟨hlow, hhigh⟩
    · rw [hcall]
      exact ⟨Nat.le_refl _, Nat.le_add_right _ _⟩
  · obtain ⟨-, first, hcall⟩ := isGoalReached_short maths (q := q) (Nat.le_of_not_lt hlong)
    rw [hcall]
    exact ⟨Nat.le_refl _, Nat.le_add_right _ _⟩

end Call

/-! ## The invariant -/

/-- The cursor is on the plan, and behind it are the queries that moved it. -/
structure Tracked (s : Checker K) (past : List (Entry K)) : Prop where
  arcs : s.pathArcM = cumulativeArcLength maths s.pathPoses
  sized : s.lastPathSize = s.pathPoses.length
  within : s.maxReachedIndex ≤ s.pathPoses.length - 1
  counted : s.maxReachedIndex ≤ (acceptedSince maths p past).length * p.maxIdxAdvancePerCall
  last : (acceptedSince maths p past).head? = s.lastProgressQuery
  spaced : (acceptedSince maths p past).IsChain (Apart maths)

variable {maths p} {s : Checker K} {past : List (Entry K)}

/-- A step that keeps plan and cursor, and accepts nothing. -/
theorem Tracked.same (h : Tracked maths p s past) {e : Event K} {s' : Checker K}
    (harcs : s'.pathArcM = cumulativeArcLength maths s'.pathPoses)
    (hsized : s'.lastPathSize = s'.pathPoses.length)
    (hlength : s'.pathPoses.length = s.pathPoses.length)
    (hindex : s'.maxReachedIndex = s.maxReachedIndex)
    (hlast : s'.lastProgressQuery = s.lastProgressQuery)
    (hrestarts : (Entry.mark e s s').restarts maths = false)
    (haccepted : (Entry.mark e s s').accepted maths p = none) :
    Tracked maths p s' (Entry.mark e s s' :: past) := by
  have hsince : acceptedSince maths p (Entry.mark e s s' :: past) = acceptedSince maths p past := by
    rw [acceptedSince_cons, hrestarts, haccepted]
    rfl
  refine ⟨harcs, hsized, ?_, ?_, ?_, ?_⟩
  · rw [hindex, hlength]
    exact h.within
  · rw [hindex, hsince]
    exact h.counted
  · rw [hlast, hsince]
    exact h.last
  · rw [hsince]
    exact h.spaced

theorem Tracked.restart {e : Event K} {s' : Checker K}
    (harcs : s'.pathArcM = cumulativeArcLength maths s'.pathPoses)
    (hsized : s'.lastPathSize = s'.pathPoses.length) (hindex : s'.maxReachedIndex = 0)
    (hlast : s'.lastProgressQuery = none)
    (hrestarts : (Entry.mark e s s').restarts maths = true) :
    Tracked maths p s' (Entry.mark e s s' :: past) := by
  have hsince : acceptedSince maths p (Entry.mark e s s' :: past) = [] := by
    rw [acceptedSince_cons, hrestarts]
    rfl
  refine ⟨harcs, hsized, ?_, ?_, ?_, ?_⟩
  · rw [hindex]
    exact Nat.zero_le _
  · rw [hindex]
    exact Nat.zero_le _
  · rw [hsince, hlast]
    rfl
  · rw [hsince]
    exact .nil

variable {q : Query K}

theorem Tracked.advance (h : Tracked maths p s past) {pose : Pose K}
    (hmoved : s.queryMoved maths pose.position = true)
    (haccepted : s.acceptedQuery maths p q = some pose.position) :
    Tracked maths p (s.advance maths p pose)
      (Entry.mark (.query q) s (s.advance maths p pose) :: past) := by
  obtain ⟨index, pending, hadvance, -, hle, hwithin⟩ := advance_spec maths (p := p) s pose
  have hsince : acceptedSince maths p (Entry.mark (.query q) s (s.advance maths p pose) :: past) =
      pose.position :: acceptedSince maths p past := by
    have hentry : (Entry.mark (.query q) s (s.advance maths p pose)).accepted maths p =
        some pose.position := haccepted
    rw [acceptedSince_cons, hentry]
    rfl
  rw [hadvance] at hsince ⊢
  refine ⟨h.arcs, h.sized, ?_, ?_, ?_, ?_⟩
  · have hold := h.within
    show index ≤ s.pathPoses.length - 1
    omega
  · have hold := h.counted
    rw [hsince, List.length_cons, Nat.succ_mul]
    show index ≤ _
    omega
  · rw [hsince]
    rfl
  · rw [hsince]
    unfold Checker.queryMoved at hmoved
    rw [← h.last] at hmoved
    cases hpast : acceptedSince maths p past with
    | nil => exact .singleton _
    | cons query earlier =>
      rw [hpast] at hmoved
      have hfar : kMinProgressQueryMotionM ≤ distance maths pose.position query :=
        of_decide_eq_true hmoved
      refine .cons_cons hfar ?_
      rw [← hpast]
      exact h.spaced

theorem Tracked.step (h : Tracked maths p s past) (e : Event K) :
    Tracked maths p (s.step maths p e) (Entry.mark e s (s.step maths p e) :: past) := by
  cases e with
  | reset => exact .restart h.arcs h.sized rfl rfl rfl
  | path msg =>
    cases hempty : msg.poses.isEmpty with
    | true =>
      have hstep : s.step maths p (.path msg) = s := if_pos hempty
      rw [hstep]
      refine h.same h.arcs h.sized rfl rfl rfl ?_ rfl
      show (!msg.poses.isEmpty && s.isNew maths msg) = false
      rw [hempty]
      rfl
    | false =>
      have hrestarts : ∀ s', (Entry.mark (.path msg) s s').restarts maths = s.isNew maths msg := by
        intro s'
        show (!msg.poses.isEmpty && s.isNew maths msg) = s.isNew maths msg
        rw [hempty]
        rfl
      have hstep : s.step maths p (.path msg) = s.onPath maths msg := rfl
      rw [hstep]
      unfold Checker.onPath
      rw [if_neg (by rw [hempty]; exact Bool.false_ne_true)]
      cases hnew : s.isNew maths msg with
      | true => exact .restart rfl rfl rfl rfl (by rw [hrestarts, hnew])
      | false =>
        -- the same number of poses
        have hlength : msg.poses.length = s.lastPathSize := by
          unfold Checker.isNew at hnew
          by_contra hne
          rw [decide_eq_true hne] at hnew
          cases hnew
        exact h.same rfl hlength.symm (hlength.trans h.sized) rfl rfl (by rw [hrestarts, hnew]) rfl
  | query q =>
    have hstep : s.step maths p (.query q) = (s.isGoalReached maths p q).1 := rfl
    rw [hstep]
    by_cases hlong : p.shortPathPoses < s.pathPoses.length
    · rcases isGoalReached_cases maths (q := q) hlong with
        ⟨hnone, hcall⟩ | ⟨pose, -, ⟨hmoved, haccepted, hcall⟩ | ⟨-, haccepted, hcall⟩⟩
      · rw [hcall]
        refine h.same h.arcs h.sized rfl rfl rfl rfl ?_
        show s.acceptedQuery maths p q = none
        unfold Checker.acceptedQuery
        rw [if_pos hlong, hnone]
        rfl
      · rw [hcall]
        exact h.advance hmoved haccepted
      · rw [hcall]
        exact h.same h.arcs h.sized rfl rfl rfl rfl haccepted
    · obtain ⟨haccepted, first, hcall⟩ :=
        isGoalReached_short maths (q := q) (Nat.le_of_not_lt hlong)
      rw [hcall]
      exact h.same h.arcs h.sized rfl rfl rfl rfl haccepted

/-! ## What the invariant says of a call -/

omit [LinearOrder K] in
/-- Every arc length is the one before it and a segment. -/
theorem arcsAfter_succ {arc : K} {a : Point K} {rest : List (Point K)} {i : Nat}
    (h : i < rest.length) :
    arcAt (arc :: arcsAfter maths arc a rest) (i + 1) =
      arcAt (arc :: arcsAfter maths arc a rest) i +
        distance maths (poseAt (a :: rest) (i + 1)) (poseAt (a :: rest) i) := by
  induction rest generalizing arc a i with
  | nil => cases h
  | cons b rest ih =>
    cases i with
    | zero => rfl
    | succ i => exact ih (Nat.lt_of_succ_lt_succ h)

theorem arcAt_mono [IsStrictOrderedRing K] (hhypot : ∀ x y, 0 ≤ maths.hypot x y)
    {poses : List (Point K)} {i : Nat} (h : i + 1 < poses.length) :
    arcAt (cumulativeArcLength maths poses) i ≤ arcAt (cumulativeArcLength maths poses) (i + 1) := by
  cases poses with
  | nil => cases h
  | cons a rest =>
    show arcAt (0 :: arcsAfter maths 0 a rest) i ≤ arcAt (0 :: arcsAfter maths 0 a rest) (i + 1)
    rw [arcsAfter_succ (Nat.lt_of_succ_lt_succ h)]
    exact le_add_of_nonneg_right (hhypot _ _)

theorem clamp_bounds {v hi : K} (hhi : 0 < hi) : 0 ≤ clamp v 0 hi ∧ clamp v 0 hi ≤ hi := by
  unfold clamp
  split
  · exact ⟨le_refl _, hhi.le⟩
  · next hlow =>
    split
    · exact ⟨hhi.le, le_refl _⟩
    · next hhigh => exact ⟨not_lt.1 hlow, not_lt.1 hhigh⟩

section Reached

variable [IsStrictOrderedRing K]

/-- What remains is the path beyond the robot's projection. -/
theorem Tracked.leftWithin (h : Tracked maths p s past) (hhypot : ∀ x y, 0 ≤ maths.hypot x y)
    {robot : Point K} {remaining bound : K}
    (hremaining : s.remainingPathLength robot = some remaining) (hbound : remaining ≤ bound) :
    LeftWithin maths s robot bound := by
  unfold Checker.remainingPathLength at hremaining
  split at hremaining
  · cases hremaining
  · have hwithin := h.within
    dsimp only at hremaining
    rw [Nat.min_eq_left hwithin, h.arcs] at hremaining
    have hvalue := Option.some.inj hremaining
    have halong : 0 ≤ s.reachedAlong robot ∧ s.reachedAlong robot ≤
        arcAt (cumulativeArcLength maths s.pathPoses)
          (min (s.maxReachedIndex + 1) (s.pathPoses.length - 1)) -
        arcAt (cumulativeArcLength maths s.pathPoses) s.maxReachedIndex := by
      unfold Checker.reachedAlong
      dsimp only
      rw [Nat.min_eq_left hwithin, h.arcs]
      split
      · next hlt =>
        rw [Nat.min_eq_left hlt]
        split
        · next hseg => exact clamp_bounds hseg
        · exact ⟨le_refl _, sub_nonneg.2 (arcAt_mono hhypot (by omega))⟩
      · next hlast =>
        rw [Nat.min_eq_right (by omega), show s.pathPoses.length - 1 = s.maxReachedIndex by omega,
          sub_self]
        exact ⟨le_refl _, le_refl _⟩
    refine ⟨?_, ?_, ?_⟩
    · linarith [halong.1]
    · linarith [halong.2]
    · linarith

omit [IsStrictOrderedRing K] in
/-- A call that says the goal is reached has little path left, and is near the goal. -/
theorem completes_true {query : Point K} (hdone : s.completes maths p query q = true) :
    (∃ remaining, s.remainingPathLength query = some remaining ∧
      remaining ≤ max 1 p.xyGoalTolerance) ∧
    distance maths q.pose.position q.goal.position ≤ p.xyGoalTolerance := by
  unfold Checker.completes at hdone
  rw [Bool.and_eq_true, Bool.or_eq_true, Bool.and_eq_true] at hdone
  obtain ⟨hgate, hgoal⟩ := hdone
  refine ⟨?_, ?_⟩
  · cases hremaining : s.remainingPathLength query with
    | none =>
      rw [hremaining] at hgate
      rcases hgate with hgate | ⟨-, hgate⟩
      · cases hgate
      · cases hgate
    | some remaining =>
      rw [hremaining] at hgate
      refine ⟨remaining, rfl, ?_⟩
      rcases hgate with hgate | ⟨-, hgate⟩
      · exact le_trans (of_decide_eq_true hgate) (le_max_right _ _)
      · exact of_decide_eq_true hgate
  · unfold Checker.withinGoal at hgoal
    split at hgoal
    · cases hgoal
    · next hnear => exact not_lt.1 hnear

/-- A query at the place of the last one is not accepted. -/
theorem not_moved (hzero : maths.hypot 0 0 = 0) {query : Point K}
    (hlast : s.lastProgressQuery = some query) : s.queryMoved maths query = false := by
  have hnone : distance maths query query < kMinProgressQueryMotionM := by
    unfold distance kMinProgressQueryMotionM
    rw [sub_self, sub_self, hzero]
    norm_num
  unfold Checker.queryMoved
  rw [hlast]
  exact decide_eq_false (not_le.2 hnone)

omit [IsStrictOrderedRing K] in
/-- On a long plan only the poses of a call matter. -/
theorem isGoalReached_congr {q' : Query K} (hlong : p.shortPathPoses < s.pathPoses.length)
    (hpose : q'.pose = q.pose) (hgoal : q'.goal = q.goal)
    (hprogress : s.progressPose p q' = s.progressPose p q) :
    s.isGoalReached maths p q' = s.isGoalReached maths p q := by
  have hcompletes : ∀ (s : Checker K) (query : Point K),
      s.completes maths p query q' = s.completes maths p query q := by
    intro s query
    unfold Checker.completes Checker.withinGoal
    rw [hpose, hgoal]
  have hsome : ¬ s.pathPoses.isEmpty = true := by
    intro hempty
    rw [List.isEmpty_iff.1 hempty] at hlong
    exact Nat.not_lt_zero _ hlong
  unfold Checker.isGoalReached
  rw [if_neg hsome, if_neg hsome, if_neg (Nat.not_le_of_lt hlong),
    if_neg (Nat.not_le_of_lt hlong), hprogress]
  cases s.progressPose p q with
  | none => rfl
  | some pose =>
    dsimp only
    rw [hcompletes]

theorem isGoalReached_repeated (hzero : maths.hypot 0 0 = 0)
    (hlong : p.shortPathPoses < s.pathPoses.length) :
    (s.isGoalReached maths p q).1.isGoalReached maths p q = s.isGoalReached maths p q := by
  rcases isGoalReached_cases maths (q := q) hlong with
    ⟨-, hcall⟩ | ⟨pose, hpose, ⟨-, -, hcall⟩ | ⟨-, -, hcall⟩⟩
  · rw [hcall]
    exact hcall
  · obtain ⟨index, pending, hadvance, -⟩ := advance_spec maths (p := p) s pose
    rw [hcall]
    generalize hnext : s.advance maths p pose = next at hadvance
    have hlong' : p.shortPathPoses < next.pathPoses.length := by
      rw [hadvance]
      exact hlong
    have hpose' : next.progressPose p q = some pose := by
      rw [hadvance]
      exact hpose
    have hstill : next.queryMoved maths pose.position = false :=
      not_moved hzero (by rw [hadvance])
    rcases isGoalReached_cases maths (q := q) hlong' with
      ⟨hnone, -⟩ | ⟨pose', hsome, ⟨hmoved, -, -⟩ | ⟨-, -, hcall'⟩⟩
    · rw [hpose'] at hnone
      cases hnone
    · rw [hpose'] at hsome
      cases hsome
      rw [hstill] at hmoved
      cases hmoved
    · rw [hpose'] at hsome
      cases hsome
      exact hcall'
  · rw [hcall]
    exact hcall

end Reached

/-! ## What the invariant says of a step -/

theorem step_kept (e : Event K) :
    s.maxReachedIndex ≤ (s.step maths p e).maxReachedIndex ∨
      (Entry.mark e s (s.step maths p e)).restarts maths = true := by
  cases e with
  | reset => exact .inr rfl
  | path msg =>
    show s.maxReachedIndex ≤ (s.onPath maths msg).maxReachedIndex ∨
      (!msg.poses.isEmpty && s.isNew maths msg) = true
    unfold Checker.onPath
    split
    · exact .inl (Nat.le_refl _)
    · next hsome =>
      split
      · next hnew =>
        right
        rw [hnew, Bool.eq_false_iff.2 hsome]
        rfl
      · exact .inl (Nat.le_refl _)
  | query q => exact .inl (query_index maths q).1

theorem ceilDiv_le {index accepted most : Nat} (h : index ≤ accepted * most) :
    index ⌈/⌉ most ≤ accepted := by
  rcases Nat.eq_zero_or_pos most with hzero | hpos
  · rw [hzero, ceilDiv_zero]
    exact Nat.zero_le _
  · rw [ceilDiv_le_iff_le_mul hpos, Nat.mul_comm]
    exact h

/-- After a restart there is nothing of what was before. -/
theorem restart_fresh (e : Event K)
    (h : (Entry.mark e s (s.step maths p e)).restarts maths = true) :
    (s.step maths p e).maxReachedIndex = 0 ∧ (s.step maths p e).pending.index = none ∧
      (s.step maths p e).pending.originOffsetM = none ∧
        (s.step maths p e).lastProgressQuery = none := by
  cases e with
  | reset => exact ⟨rfl, rfl, rfl, rfl⟩
  | path msg =>
    have hboth : (!msg.poses.isEmpty && s.isNew maths msg) = true := h
    rw [Bool.and_eq_true, Bool.not_eq_true'] at hboth
    have hstep : s.step maths p (.path msg) = s.onPath maths msg := rfl
    rw [hstep]
    unfold Checker.onPath
    rw [if_neg (Bool.eq_false_iff.1 hboth.1), if_pos hboth.2]
    exact ⟨rfl, rfl, rfl, rfl⟩
  | query q => cases h

theorem onPath_keeps {msg : Path K} (h : (!msg.poses.isEmpty && s.isNew maths msg) = false) :
    (s.onPath maths msg).maxReachedIndex = s.maxReachedIndex ∧
      (s.onPath maths msg).pending = s.pending ∧
        (s.onPath maths msg).lastProgressQuery = s.lastProgressQuery := by
  unfold Checker.onPath
  split
  · exact ⟨rfl, rfl, rfl⟩
  · next hsome =>
    rw [Bool.eq_false_iff.2 hsome, Bool.not_false, Bool.true_and] at h
    rw [h]
    exact ⟨rfl, rfl, rfl⟩

theorem Tracked.driven [IsStrictOrderedRing K] (h : Tracked maths p s past)
    (hhypot : ∀ x y, 0 ≤ maths.hypot x y) (hzero : maths.hypot 0 0 = 0) (e : Event K) :
    Driven maths p (Entry.mark e s (s.step maths p e)) past where
  kept := step_kept e
  bounded := by
    rintro q rfl
    exact (query_index maths q).2
  still := by
    rintro q pose last rfl hlong hpose hlast hnear
    have hlong : p.shortPathPoses < s.pathPoses.length := hlong
    have hpose : s.progressPose p q = some pose := hpose
    have hlast : s.lastProgressQuery = some last := hlast
    have hstill : s.queryMoved maths pose.position = false := by
      unfold Checker.queryMoved
      rw [hlast]
      exact decide_eq_false (not_le.2 hnear)
    rcases isGoalReached_cases maths (q := q) hlong with
      ⟨-, hcall⟩ | ⟨pose', hpose', ⟨hmoved, -, -⟩ | ⟨-, -, hcall⟩⟩
    · exact congrArg Prod.fst hcall
    · rw [hpose] at hpose'
      cases hpose'
      rw [hstill] at hmoved
      cases hmoved
    · exact congrArg Prod.fst hcall
  untransformed := by
    rintro q rfl hlong hnone
    have hlong : p.shortPathPoses < s.pathPoses.length := hlong
    have hnone : s.progressPose p q = none := hnone
    rcases isGoalReached_cases maths (q := q) hlong with ⟨-, hcall⟩ | ⟨pose, hpose, -⟩
    · exact congrArg Prod.fst hcall
    · rw [hnone] at hpose
      cases hpose
  repeated := by
    rintro q q' rfl hlong hpose hgoal hprogress hfalse
    have hlong : p.shortPathPoses < s.pathPoses.length := hlong
    have hprogress : s.progressPose p q' = s.progressPose p q := hprogress
    have hcongr : s.isGoalReached maths p q' = s.isGoalReached maths p q :=
      isGoalReached_congr hlong hpose hgoal hprogress
    have hsame := isGoalReached_repeated hzero (q := q') hlong
    rw [hcongr] at hsame
    exact (congrArg Prod.snd hsame).trans hfalse
  reached := by
    rintro q rfl hlong htrue
    have hlong : p.shortPathPoses < s.pathPoses.length := hlong
    have hnext := h.step (.query q)
    have hstep : s.step maths p (.query q) = (s.isGoalReached maths p q).1 := rfl
    have htrue : (s.isGoalReached maths p q).2 = true := htrue
    show (∃ pose, s.progressPose p q = some pose ∧
      LeftWithin maths (s.step maths p (.query q)) pose.position _) ∧ _
    rw [hstep] at hnext ⊢
    rcases isGoalReached_cases maths (q := q) hlong with
      ⟨-, hcall⟩ | ⟨pose, hpose, ⟨-, -, hcall⟩ | ⟨-, -, hcall⟩⟩
    · rw [hcall] at htrue
      cases htrue
    · rw [hcall] at htrue hnext ⊢
      obtain ⟨⟨remaining, hremaining, hbound⟩, hnear⟩ := completes_true htrue
      exact ⟨⟨pose, hpose, hnext.leftWithin hhypot hremaining hbound⟩, hnear⟩
    · rw [hcall] at htrue hnext ⊢
      obtain ⟨⟨remaining, hremaining, hbound⟩, hnear⟩ := completes_true htrue
      exact ⟨⟨pose, hpose, hnext.leftWithin hhypot hremaining hbound⟩, hnear⟩
  counted := ⟨ceilDiv_le h.counted, ceilDiv_le (h.step e).counted⟩
  spaced := (h.step e).spaced
  fresh := restart_fresh e
  republished := by
    rintro msg rfl h
    exact onPath_keeps h

theorem Tracked.start : Tracked maths p ({} : Checker K) [] :=
  ⟨rfl, rfl, Nat.le_refl _, Nat.zero_le _, rfl, .nil⟩

/-! ## Exact distances -/

noncomputable def exact : Maths ℝ where
  hypot := fun x y => √(x * x + y * y)
  sqrt := Real.sqrt
  cos := Real.cos
  sin := Real.sin
  atan2 := fun y x => Complex.arg ⟨x, y⟩

/-- In every run the goal is reached only with the path driven. -/
theorem coverage_goal_driven (p : Params ℝ) (es : List (Event ℝ)) :
    Always (Driven exact p) (history exact p es) := by
  have hhypot : ∀ x y, 0 ≤ exact.hypot x y := by
    intro x y
    exact Real.sqrt_nonneg _
  have hzero : exact.hypot 0 0 = 0 := by
    show √(0 * 0 + 0 * 0) = 0
    rw [mul_zero, add_zero, Real.sqrt_zero]
  have hstep : ∀ s past e, Tracked exact p s past →
      Tracked exact p (s.step exact p e) (Entry.mark e s (s.step exact p e) :: past) ∧
        Driven exact p (Entry.mark e s (s.step exact p e)) past := by
    intro s past e h
    exact ⟨h.step e, h.driven hhypot hzero e⟩
  exact History.run_always hstep Tracked.start es

end Nav
end Mowgli
