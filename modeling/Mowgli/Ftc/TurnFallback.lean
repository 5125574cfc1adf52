import Mathlib.Data.Rat.Floor

/-!
# TurnFallback — the motion around a blockage in a turn

A blockage in a turn is passed by leaving the plan: (reverse) → rotate → straight → rotate →
follow from a rejoin. The rejoin is searched forward pose by pose, least skipped path first, and
for each of them the reverse, least first. What a body, a sweep or the controller can do is
asked through `Sweeps`; the search does not know the costmap. Numbers are exact, and the
functions of the mathematical library are whatever `Maths` says.
-/

namespace Mowgli
namespace Ftc

/-- A planar pose. `yaw` is the heading of base_link. -/
structure FallbackPose where
  x : ℚ := 0
  y : ℚ := 0
  yaw : ℚ := 0
deriving DecidableEq, Repr

/-- A pose of the plan, its orientation a quaternion. -/
structure PlanPose where
  x : ℚ
  y : ℚ
  qx : ℚ
  qy : ℚ
  qz : ℚ
  qw : ℚ

structure Maths where
  hypot : ℚ → ℚ → ℚ
  atan2 : ℚ → ℚ → ℚ
  cos : ℚ → ℚ
  sin : ℚ → ℚ
  pi : ℚ

structure TurnFallbackCfg where
  maxReverse : ℚ := 40 / 100
  reverseStep : ℚ := 5 / 100
  maxRejoinArc : ℚ := 3
  minTurn : ℚ := 45 * (314159265358979323846 / 10 ^ 20) / 180
  turnBehind : ℚ := 30 / 100
  turnAhead : ℚ := 75 / 100
  blockageScan : ℚ := 25 / 10
  unambiguousRotation : ℚ := 160 * (314159265358979323846 / 10 ^ 20) / 180
  minConnector : ℚ := 5 / 100
  maxEvaluations : ℕ := 1000

inductive TurnFallbackVerdict
  | planned
  | noBlockage
  | notATurn
  | noRejoin
  | badInput
deriving DecidableEq, Repr

/-- What the costmap, the guard and the shapes answer. -/
structure Sweeps where
  bodyBlocked : FallbackPose → Bool
  rotationSweepClear : (x y fromYaw toYaw : ℚ) → Bool
  straightSweepClear : (start : FallbackPose) → (toX toY : ℚ) → Bool
  /-- From where the robot stands. -/
  reverseSweepClear : (distance : ℚ) → Bool

structure TurnFallbackProblem where
  /-- A costmap is given. -/
  costmap : Bool
  footprintVertices : ℕ
  bodyVertices : ℕ
  plan : List PlanPose
  robot : FallbackPose
  followable : Option (ℕ → Bool)
  sweeps : Sweeps

structure TurnFallbackPlan where
  verdict : TurnFallbackVerdict := .badInput
  blocked : ℕ := 0
  blockedArc : ℚ := 0
  turn : ℚ := 0
  reverseLimit : ℚ := 0
  reverse : ℚ := 0
  rejoin : ℕ := 0
  skippedArc : ℚ := 0
  connector : ℚ := 0
  rotateStart : ℚ := 0
  rotateRejoin : ℚ := 0
  start : FallbackPose := {}
  rejoinPose : FallbackPose := {}
  evaluated : ℕ := 0
  why : String := ""
  /-- The candidates `evaluated` counts; the code keeps the number only. -/
  examined : List (ℕ × ℚ) := []

/-- One (rejoin, reverse) candidate. -/
structure Candidate where
  start : FallbackPose
  connector : ℚ
  rotateStart : ℚ
  rotateRejoin : ℚ
  singleRotation : Bool

section

variable (maths : Maths) (cfg : TurnFallbackCfg) (p : TurnFallbackProblem)

def wrapPivotAngle (a : ℚ) : ℚ := maths.atan2 (maths.sin a) (maths.cos a)

def yawOf (q : PlanPose) : ℚ :=
  maths.atan2 (2 * (q.qw * q.qz + q.qx * q.qy)) (1 - 2 * (q.qy * q.qy + q.qz * q.qz))

def planPose (i : ℕ) : PlanPose := p.plan.getD i ⟨0, 0, 0, 0, 0, 0⟩

def toFallbackPose (q : PlanPose) : FallbackPose := { x := q.x, y := q.y, yaw := yawOf maths q }

/-- `CumulativeArc`, by index. -/
def arc : ℕ → ℚ
  | 0 => 0
  | i + 1 => arc i +
      maths.hypot ((planPose p (i + 1)).x - (planPose p i).x)
        ((planPose p (i + 1)).y - (planPose p i).y)

def bodyBlockedAt (i : ℕ) : Bool :=
  p.sweeps.bodyBlocked (toFallbackPose maths (planPose p i))

def backedUp (pose : FallbackPose) (distance : ℚ) : FallbackPose :=
  { x := pose.x - distance * maths.cos pose.yaw
    y := pose.y - distance * maths.sin pose.yaw
    yaw := pose.yaw }

/-! ### The heading sweep around a pose -/

/-- The first index of the stretch, from `lo` downwards. -/
def sweepFrom (center : ℕ) : ℕ → ℕ
  | 0 => 0
  | lo + 1 =>
    if arc maths p center - arc maths p lo ≤ cfg.turnBehind then sweepFrom center lo else lo + 1

/-- The last index of the stretch, from `hi` upwards, with `left` poses after it. -/
def sweepTo (center hi : ℕ) : ℕ → ℕ
  | 0 => hi
  | left + 1 =>
    if arc maths p (hi + 1) - arc maths p center ≤ cfg.turnAhead then
      sweepTo center (hi + 1) left
    else hi

/-- The heading unwrapped along the plan, with its least and its greatest value so far. -/
def headingSweep : List ℕ → ℚ × ℚ × ℚ → ℚ × ℚ × ℚ
  | [], s => s
  | i :: rest, (unwrapped, least, greatest) =>
    let turned := unwrapped +
      wrapPivotAngle maths (yawOf maths (planPose p i) - yawOf maths (planPose p (i - 1)))
    headingSweep rest (turned, min least turned, max greatest turned)

def planHeadingSweep (center : ℕ) : ℚ :=
  if p.plan = [] ∨ p.plan.length ≤ center then 0
  else
    let first := sweepFrom maths cfg p center center
    let last := sweepTo maths cfg p center center (p.plan.length - 1 - center)
    let yaw := yawOf maths (planPose p first)
    let swept := headingSweep maths p (List.range' (first + 1) (last - first))
      (yaw, yaw, yaw)
    swept.2.2 - swept.2.1

/-! ### One candidate -/

/-- Four quarter turns. -/
def fullTurnClear (x y yaw : ℚ) : Bool :=
  (List.range 4).all (fun k =>
    p.sweeps.rotationSweepClear x y (yaw + k * (maths.pi / 2))
      (yaw + k * (maths.pi / 2) + maths.pi / 2))

/-- The short way is certain up to a limit; beyond it the full turn must be clear. -/
def plannedRotationClear (x y fromYaw toYaw : ℚ) : Bool :=
  if |wrapPivotAngle maths (toYaw - fromYaw)| ≤ cfg.unambiguousRotation then
    p.sweeps.rotationSweepClear x y fromYaw toYaw
  else fullTurnClear maths p x y fromYaw

/-- The candidate completed, and why it fails, if it does. -/
def checkCandidate (rejoin start : FallbackPose) : Candidate × Option String :=
  let dx := rejoin.x - start.x
  let dy := rejoin.y - start.y
  let connector := maths.hypot dx dy
  if connector < cfg.minConnector then
    ({ start := start, connector := connector,
       rotateStart := wrapPivotAngle maths (rejoin.yaw - start.yaw), rotateRejoin := 0,
       singleRotation := true },
      if plannedRotationClear maths cfg p start.x start.y start.yaw rejoin.yaw then none
      else some "rotation at the start is blocked")
  else
    let heading := maths.atan2 dy dx
    ({ start := start, connector := connector,
       rotateStart := wrapPivotAngle maths (heading - start.yaw),
       rotateRejoin := wrapPivotAngle maths (rejoin.yaw - heading), singleRotation := false },
      if p.sweeps.straightSweepClear ⟨start.x, start.y, heading⟩ rejoin.x rejoin.y = false then
        some "connector is blocked"
      else if plannedRotationClear maths cfg p rejoin.x rejoin.y heading rejoin.yaw = false then
        some "rotation at the rejoin is blocked"
      else if plannedRotationClear maths cfg p start.x start.y start.yaw heading = false then
        some "rotation at the start is blocked"
      else none)

/-- The caller's predicate, or by default a clear body on the line for 0.5 m. -/
def followableFrom (j : ℕ) : Bool :=
  match p.followable with
  | some f => f j
  | none =>
    ((List.range' j (p.plan.length - j)).takeWhile
      (fun k => decide (arc maths p k - arc maths p j ≤ 1 / 2))).all
        (fun k => !bodyBlockedAt maths p k)

/-! ### The search -/

/-- `step` of the reverse. -/
def reverseStep : ℚ := if cfg.reverseStep < 1 / 100 then 1 / 100 else cfg.reverseStep

theorem reverseStep_pos : 0 < reverseStep cfg := by
  unfold reverseStep
  split
  · norm_num
  · rename_i h
    linarith [not_lt.1 h]

/-- The values of `for (r = start; r <= limit + 1e-9; r += step)`. -/
def reverses (start limit : ℚ) : List ℚ :=
  if start ≤ limit + 1 / 10 ^ 9 then start :: reverses (start + reverseStep cfg) limit else []
termination_by (⌊(limit + 1 / 10 ^ 9 - start) / reverseStep cfg⌋ + 1).toNat
decreasing_by
  have hstep := reverseStep_pos cfg
  have heq : (limit + 1 / 10 ^ 9 - (start + reverseStep cfg)) / reverseStep cfg =
      (limit + 1 / 10 ^ 9 - start) / reverseStep cfg - 1 := by
    rw [← sub_sub, sub_div, div_self (ne_of_gt hstep)]
  have hnonneg : 0 ≤ ⌊(limit + 1 / 10 ^ 9 - start) / reverseStep cfg⌋ := by
    apply Int.floor_nonneg.2
    apply div_nonneg
    · linarith
    · exact le_of_lt hstep
  rw [heq, Int.floor_sub_one]
  omega

/-- How far the robot may back straight up. -/
def reverseLimit : ℚ :=
  ((reverses cfg (reverseStep cfg) cfg.maxReverse).takeWhile p.sweeps.reverseSweepClear).getLastD 0

/-- What the search leaves behind. -/
structure Search where
  evaluated : ℕ
  examined : List (ℕ × ℚ)
  why : String

def Search.count (s : Search) (j : ℕ) (r : ℚ) : Search :=
  { s with evaluated := s.evaluated + 1, examined := s.examined ++ [(j, r)] }

/-- How a loop over candidates ends. -/
inductive Outcome
  /-- On to the next rejoin. -/
  | next (s : Search)
  | exhausted (s : Search)
  | planned (s : Search) (j : ℕ) (r : ℚ) (c : Candidate)

/-- The reverses of one rejoin. `followable` is the verdict once it was asked for. -/
def tryReverses (j : ℕ) : List ℚ → Option Bool → Search → Outcome
  | [], _, s => .next s
  | r :: rs, followable, s =>
    if cfg.maxEvaluations ≤ s.evaluated then
      .exhausted { s with why := "search budget exhausted" }
    else
      let checked := checkCandidate maths cfg p (toFallbackPose maths (planPose p j))
        (backedUp maths p.robot r)
      match checked.2 with
      | some failure => tryReverses j rs followable { s.count j r with why := failure }
      | none =>
        if followable.getD (followableFrom maths p j) = false then
          -- this rejoin is out whatever the reverse
          .next { s.count j r with why := "the plan is not followable from the rejoin" }
        else .planned (s.count j r) j r checked.1

/-- The rejoins, least skipped path first. -/
def tryRejoins (limit : ℚ) : List ℕ → Search → Outcome
  | [], s => .next s
  | j :: js, s =>
    if cfg.maxRejoinArc < arc maths p j then .next s
    else if bodyBlockedAt maths p j then tryRejoins limit js s
    else
      match tryReverses maths cfg p j (reverses cfg 0 limit) none s with
      | .next s => tryRejoins limit js s
      | .exhausted s => .exhausted s
      | .planned s j r c => .planned s j r c

/-- The first plan pose ahead whose body covers a lethal cell. -/
def firstBlocked : Option ℕ :=
  ((List.range p.plan.length).takeWhile
    (fun i => decide (arc maths p i ≤ cfg.blockageScan))).find? (bodyBlockedAt maths p)

def planTurnFallback : TurnFallbackPlan :=
  if p.costmap = false ∨ p.footprintVertices < 3 ∨ p.bodyVertices < 3 ∨ p.plan.length < 3 then
    { verdict := .badInput }
  else
    match firstBlocked maths cfg p with
    | none => { verdict := .noBlockage }
    | some blocked =>
      let turn := planHeadingSweep maths cfg p blocked
      if turn < cfg.minTurn then
        { verdict := .notATurn, blocked := blocked, blockedArc := arc maths p blocked, turn := turn }
      else
        let limit := reverseLimit cfg p
        let found : TurnFallbackPlan :=
          { verdict := .noRejoin, blocked := blocked, blockedArc := arc maths p blocked,
            turn := turn, reverseLimit := limit }
        -- `j + 2 < plan.size()`
        match tryRejoins maths cfg p limit
            (List.range' (blocked + 1) (p.plan.length - 2 - (blocked + 1)))
            { evaluated := 0, examined := [],
              why := "no clear plan pose past the blockage within the search" } with
        | .next s | .exhausted s =>
          { found with evaluated := s.evaluated, examined := s.examined, why := s.why }
        | .planned s j r c =>
          { found with
            verdict := .planned
            reverse := r
            rejoin := j
            skippedArc := arc maths p j
            connector := if c.singleRotation then 0 else c.connector
            rotateStart := c.rotateStart
            rotateRejoin := c.rotateRejoin
            start := c.start
            rejoinPose := toFallbackPose maths (planPose p j)
            evaluated := s.evaluated
            examined := s.examined
            why := "" }

/-! ## How far back -/

theorem reverses_eq (start limit : ℚ) :
    ∃ n : ℕ, reverses cfg start limit =
        (List.range n).map (fun i : ℕ => start + (i : ℚ) * reverseStep cfg) ∧
      ∀ i : ℕ, i < n ↔ start + i * reverseStep cfg ≤ limit + 1 / 10 ^ 9 := by
  have hstep := reverseStep_pos cfg
  induction start using reverses.induct cfg limit with
  | case1 start hle ih =>
    obtain ⟨n, heq, hn⟩ := ih
    refine ⟨n + 1, ?_, ?_⟩
    · rw [reverses, if_pos hle, heq, List.range_succ_eq_map, List.map_cons, List.map_map]
      congr 1
      · simp
      · apply List.map_congr_left
        intro i _
        simp only [Function.comp, Nat.succ_eq_add_one]
        push_cast
        ring
    · intro i
      cases i with
      | zero => simpa using hle
      | succ i =>
        rw [Nat.add_lt_add_iff_right, hn i]
        push_cast
        rw [show start + reverseStep cfg + (i : ℚ) * reverseStep cfg =
          start + ((i : ℚ) + 1) * reverseStep cfg by ring]
  | case2 start hle =>
    refine ⟨0, by rw [reverses, if_neg hle]; rfl, ?_⟩
    intro i
    constructor
    · intro h
      omega
    · intro h
      have hnonneg : 0 ≤ (i : ℚ) * reverseStep cfg :=
        mul_nonneg (Nat.cast_nonneg i) (le_of_lt hstep)
      exact absurd (by linarith) hle

/-- How much of an initial stretch of numbers passes a test. -/
theorem takeWhile_range {α : Type} (f : ℕ → α) (q : α → Bool) (n : ℕ) :
    ∃ m ≤ n, ((List.range n).map f).takeWhile q = (List.range m).map f ∧
      (∀ i < m, q (f i) = true) ∧ (m < n → q (f m) = false) := by
  induction n with
  | zero => exact ⟨0, le_refl 0, rfl, by simp, by simp⟩
  | succ n ih =>
    obtain ⟨m, hm, heq, hpass, hstop⟩ := ih
    rw [List.range_succ, List.map_append, List.takeWhile_append]
    rcases Nat.lt_or_eq_of_le hm with hlt | rfl
    · have hshort : ¬ (((List.range n).map f).takeWhile q).length = ((List.range n).map f).length := by
        rw [heq]
        simp
        omega
      rw [if_neg hshort]
      exact ⟨m, by omega, heq, hpass, fun _ => hstop hlt⟩
    · have hall : (((List.range m).map f).takeWhile q).length = ((List.range m).map f).length := by
        rw [heq]
      rw [if_pos hall]
      cases hq : q (f m) with
      | true =>
        refine ⟨m + 1, le_refl _, ?_, ?_, by simp⟩
        · rw [List.range_succ, List.map_append]
          simp [hq]
        · intro i hi
          rcases Nat.lt_or_eq_of_le (Nat.le_of_lt_succ hi) with hi | rfl
          · exact hpass i hi
          · exact hq
      | false =>
        refine ⟨m, by omega, ?_, hpass, fun _ => hq⟩
        simp [hq]

/-- A distance the robot may back up: a multiple of the step which, with all smaller ones, is
within the configured reverse and passes the sweep. -/
def Backable (r : ℚ) : Prop :=
  ∃ k : ℕ, r = k * reverseStep cfg ∧ ∀ i : ℕ, 1 ≤ i → i ≤ k →
    i * reverseStep cfg ≤ cfg.maxReverse + 1 / 10 ^ 9 ∧
      p.sweeps.reverseSweepClear (i * reverseStep cfg) = true

/-- The limit is a multiple of the step, and what may be backed up is what does not exceed it. -/
theorem reverseLimit_eq : ∃ m : ℕ, reverseLimit cfg p = m * reverseStep cfg ∧
    ∀ k : ℕ, k ≤ m ↔ ∀ i : ℕ, 1 ≤ i → i ≤ k →
      i * reverseStep cfg ≤ cfg.maxReverse + 1 / 10 ^ 9 ∧
        p.sweeps.reverseSweepClear (i * reverseStep cfg) = true := by
  have hmultiple : ∀ i : ℕ, reverseStep cfg + i * reverseStep cfg =
      ((i + 1 : ℕ) : ℚ) * reverseStep cfg := by
    intro i
    push_cast
    ring
  obtain ⟨n, heq, hn⟩ := reverses_eq cfg (reverseStep cfg) cfg.maxReverse
  obtain ⟨m, hmn, htake, hpass, hstop⟩ :=
    takeWhile_range (fun i : ℕ => reverseStep cfg + i * reverseStep cfg)
      p.sweeps.reverseSweepClear n
  refine ⟨m, ?_, ?_⟩
  · unfold reverseLimit
    rw [heq, htake]
    cases m with
    | zero => simp
    | succ m =>
      rw [List.range_succ, List.map_append, List.map_singleton, List.getLastD_eq_getLast?,
        List.getLast?_concat, Option.getD_some, hmultiple]
  · intro k
    constructor
    · intro hk i hi hik
      obtain ⟨i, rfl⟩ : ∃ i', i = i' + 1 := ⟨i - 1, by omega⟩
      rw [← hmultiple]
      exact ⟨(hn i).1 (by omega), hpass i (by omega)⟩
    · intro h
      by_contra hlt
      obtain ⟨hle, hclear⟩ := h (m + 1) (by omega) (by omega)
      rw [← hmultiple] at hle hclear
      rw [hstop ((hn m).2 hle)] at hclear
      cases hclear

variable {r : ℚ}

/-- The reverses tried for a rejoin are the distances the robot may back up. -/
theorem mem_reverses : r ∈ reverses cfg 0 (reverseLimit cfg p) ↔ Backable cfg p r := by
  obtain ⟨m, hlimit, hm⟩ := reverseLimit_eq cfg p
  obtain ⟨n, heq, hn⟩ := reverses_eq cfg 0 (reverseLimit cfg p)
  have hstep : 1 / 100 ≤ reverseStep cfg := by
    unfold reverseStep
    split
    · exact le_refl _
    · rename_i h
      exact not_lt.1 h
  -- the tolerance of the loop is less than a step
  have hnm : ∀ k : ℕ, k < n ↔ k ≤ m := by
    intro k
    rw [hn k, hlimit, zero_add]
    constructor
    · intro h
      by_contra hlt
      have hcast : ((m + 1 : ℕ) : ℚ) ≤ k := Nat.cast_le.2 (by omega)
      push_cast at hcast
      have hmul := mul_le_mul_of_nonneg_right hcast (le_of_lt (reverseStep_pos cfg))
      have htol : (1 : ℚ) / 10 ^ 9 < 1 / 100 := by norm_num
      linarith
    · intro h
      have hcast : (k : ℚ) ≤ m := Nat.cast_le.2 h
      have hmul := mul_le_mul_of_nonneg_right hcast (le_of_lt (reverseStep_pos cfg))
      have htol : (0 : ℚ) ≤ 1 / 10 ^ 9 := by norm_num
      linarith
  rw [heq, List.mem_map]
  constructor
  · intro h
    obtain ⟨k, hk, rfl⟩ := h
    exact ⟨k, zero_add _, (hm k).1 ((hnm k).1 (List.mem_range.1 hk))⟩
  · intro h
    obtain ⟨k, rfl, hk⟩ := h
    exact ⟨k, List.mem_range.2 ((hnm k).2 ((hm k).2 hk)), zero_add _⟩

theorem reverses_pairwise (limit : ℚ) : (reverses cfg 0 limit).Pairwise (· < ·) := by
  obtain ⟨n, heq, _⟩ := reverses_eq cfg 0 limit
  rw [heq, List.pairwise_map]
  apply List.Pairwise.imp _ List.pairwise_lt_range
  intro a b hab
  have hcast : (a : ℚ) < b := Nat.cast_lt.2 hab
  have hmul := mul_lt_mul_of_pos_right hcast (reverseStep_pos cfg)
  linarith

/-! ## What a candidate has to pass -/

/-- The rotations and the connector of a manoeuvre pass their checks. A connector too short to
be driven leaves one rotation, to the rejoin heading. -/
def Passes (rejoin start : FallbackPose) : Prop :=
  let heading := maths.atan2 (rejoin.y - start.y) (rejoin.x - start.x)
  if maths.hypot (rejoin.x - start.x) (rejoin.y - start.y) < cfg.minConnector then
    plannedRotationClear maths cfg p start.x start.y start.yaw rejoin.yaw = true
  else
    p.sweeps.straightSweepClear ⟨start.x, start.y, heading⟩ rejoin.x rejoin.y = true ∧
      plannedRotationClear maths cfg p rejoin.x rejoin.y heading rejoin.yaw = true ∧
      plannedRotationClear maths cfg p start.x start.y start.yaw heading = true

theorem checkCandidate_passes (rejoin start : FallbackPose) :
    (checkCandidate maths cfg p rejoin start).2 = none ↔ Passes maths cfg p rejoin start := by
  unfold checkCandidate Passes
  by_cases hshort : maths.hypot (rejoin.x - start.x) (rejoin.y - start.y) < cfg.minConnector
  · simp [hshort]
  · simp only [if_neg hshort]
    cases p.sweeps.straightSweepClear
        ⟨start.x, start.y, maths.atan2 (rejoin.y - start.y) (rejoin.x - start.x)⟩ rejoin.x
        rejoin.y with
    | false => simp
    | true =>
      cases plannedRotationClear maths cfg p rejoin.x rejoin.y
          (maths.atan2 (rejoin.y - start.y) (rejoin.x - start.x)) rejoin.yaw with
      | false => simp
      | true => simp

/-- The manoeuvre to plan pose `j` with a reverse of `r` passes, and the plan can be followed
from there. -/
def Hit (j : ℕ) (r : ℚ) : Prop :=
  Passes maths cfg p (toFallbackPose maths (planPose p j)) (backedUp maths p.robot r) ∧
    followableFrom maths p j = true

/-- The rejoins the search may stop at. -/
def Open (j : ℕ) : Prop := arc maths p j ≤ cfg.maxRejoinArc ∧ bodyBlockedAt maths p j = false

/-! ## The search -/

/-- A search that counted what it examined, within the budget, and found nothing. -/
structure Fruitless (s : Search) : Prop where
  count : s.evaluated = s.examined.length
  budget : s.evaluated ≤ cfg.maxEvaluations
  missed : ∀ x ∈ s.examined, ¬ Hit maths cfg p x.1 x.2

theorem Fruitless.count_miss {s : Search} (h : Fruitless maths cfg p s) {j : ℕ}
    (hroom : s.evaluated < cfg.maxEvaluations) (hmiss : ¬ Hit maths cfg p j r) (why : String) :
    Fruitless maths cfg p { s.count j r with why := why } where
  count := by simp [Search.count, h.count]
  budget := hroom
  missed := by
    intro x hx
    rcases List.mem_append.1 hx with hx | hx
    · exact h.missed x hx
    · rw [List.mem_singleton.1 hx]
      exact hmiss

/-- Everything the reverses of one rejoin can come to. -/
theorem tryReverses_cases (j : ℕ) (rs : List ℚ) (memo : Option Bool) (s : Search)
    (hmemo : ∀ f, memo = some f → f = followableFrom maths p j)
    (hs : Fruitless maths cfg p s) :
    (∃ s', tryReverses maths cfg p j rs memo s = .next s' ∧ Fruitless maths cfg p s' ∧
      ∀ r ∈ rs, ¬ Hit maths cfg p j r) ∨
    (∃ s', tryReverses maths cfg p j rs memo s = .exhausted s' ∧ Fruitless maths cfg p s' ∧
      cfg.maxEvaluations ≤ s'.evaluated) ∨
    (∃ s' before r after, tryReverses maths cfg p j rs memo s =
        .planned (s'.count j r) j r (checkCandidate maths cfg p
          (toFallbackPose maths (planPose p j)) (backedUp maths p.robot r)).1 ∧
      Fruitless maths cfg p s' ∧ s'.evaluated < cfg.maxEvaluations ∧
      rs = before ++ r :: after ∧ Hit maths cfg p j r ∧ ∀ x ∈ before, ¬ Hit maths cfg p j x) := by
  induction rs generalizing memo s with
  | nil => exact Or.inl ⟨s, rfl, hs, by simp⟩
  | cons r rs ih =>
    rw [tryReverses]
    by_cases hfull : cfg.maxEvaluations ≤ s.evaluated
    · rw [if_pos hfull]
      exact Or.inr (Or.inl ⟨_, rfl, ⟨hs.count, hs.budget, hs.missed⟩, hfull⟩)
    · rw [if_neg hfull]
      have hroom : s.evaluated < cfg.maxEvaluations := not_le.1 hfull
      cases hchecked : (checkCandidate maths cfg p (toFallbackPose maths (planPose p j))
          (backedUp maths p.robot r)).2 with
      | some failure =>
        have hmiss : ¬ Hit maths cfg p j r := by
          intro h
          rw [(checkCandidate_passes maths cfg p _ _).2 h.1] at hchecked
          cases hchecked
        simp only [hchecked]
        rcases ih memo _ hmemo (hs.count_miss maths cfg p hroom hmiss failure) with
          ⟨s', heq, hs', hnone⟩ | ⟨s', heq, hs', hend⟩ |
          ⟨s', before, x, after, heq, hs', hlt, rfl, hhit, hbefore⟩
        · refine Or.inl ⟨s', heq, hs', ?_⟩
          intro x hx
          rcases List.mem_cons.1 hx with rfl | hx
          · exact hmiss
          · exact hnone x hx
        · exact Or.inr (Or.inl ⟨s', heq, hs', hend⟩)
        · refine Or.inr (Or.inr ⟨s', r :: before, x, after, heq, hs', hlt, rfl, hhit, ?_⟩)
          intro y hy
          rcases List.mem_cons.1 hy with rfl | hy
          · exact hmiss
          · exact hbefore y hy
      | none =>
        have hpass := (checkCandidate_passes maths cfg p _ _).1 hchecked
        have hverdict : memo.getD (followableFrom maths p j) = followableFrom maths p j := by
          cases memo with
          | none => rfl
          | some f => exact hmemo f rfl
        simp only [hchecked, hverdict]
        cases hfollow : followableFrom maths p j with
        | false =>
          have hout : ∀ x, ¬ Hit maths cfg p j x := by
            intro x h
            exact absurd (h.2.symm.trans hfollow) (by simp)
          exact Or.inl ⟨_, rfl, hs.count_miss maths cfg p hroom (hout r) _, fun x _ => hout x⟩
        | true =>
          exact Or.inr (Or.inr ⟨s, [], r, rs, rfl, hs, hroom, rfl, ⟨hpass, hfollow⟩, by simp⟩)

/-- How the search for a rejoin can end: without a hit, out of budget, or at the first hit. -/
def Ends (limit : ℚ) (js : List ℕ) (out : Outcome) : Prop :=
  (∃ s, out = .next s ∧ Fruitless maths cfg p s ∧
    (Monotone (arc maths p) → js.Pairwise (· < ·) →
      ∀ j ∈ js, Open maths cfg p j → ∀ r ∈ reverses cfg 0 limit, ¬ Hit maths cfg p j r)) ∨
  (∃ s, out = .exhausted s ∧ Fruitless maths cfg p s ∧ cfg.maxEvaluations ≤ s.evaluated) ∨
  (∃ s earlier j later before r after,
    out = .planned (s.count j r) j r (checkCandidate maths cfg p
      (toFallbackPose maths (planPose p j)) (backedUp maths p.robot r)).1 ∧
    Fruitless maths cfg p s ∧ s.evaluated < cfg.maxEvaluations ∧
    js = earlier ++ j :: later ∧ Open maths cfg p j ∧
    reverses cfg 0 limit = before ++ r :: after ∧ Hit maths cfg p j r ∧
    (∀ x ∈ before, ¬ Hit maths cfg p j x) ∧
    ∀ i ∈ earlier, Open maths cfg p i → ∀ x ∈ reverses cfg 0 limit, ¬ Hit maths cfg p i x)

/-- A rejoin without a hit changes nothing about how the search goes on. -/
theorem Ends.cons {limit : ℚ} {j : ℕ} {js : List ℕ} {out : Outcome}
    (hj : Open maths cfg p j → ∀ r ∈ reverses cfg 0 limit, ¬ Hit maths cfg p j r)
    (h : Ends maths cfg p limit js out) : Ends maths cfg p limit (j :: js) out := by
  rcases h with ⟨s, heq, hs, hnone⟩ | ⟨s, heq, hs, hend⟩ |
    ⟨s, earlier, i, later, before, r, after, heq, hs, hlt, rfl, hopen, hrs, hhit, hbefore, hearlier⟩
  · refine Or.inl ⟨s, heq, hs, ?_⟩
    intro hmono hsorted i hi
    rcases List.mem_cons.1 hi with rfl | hi
    · exact hj
    · exact hnone hmono (List.pairwise_cons.1 hsorted).2 i hi
  · exact Or.inr (Or.inl ⟨s, heq, hs, hend⟩)
  · refine Or.inr (Or.inr ⟨s, j :: earlier, i, later, before, r, after, heq, hs, hlt, rfl, hopen,
      hrs, hhit, hbefore, ?_⟩)
    intro k hk
    rcases List.mem_cons.1 hk with rfl | hk
    · exact hj
    · exact hearlier k hk

theorem tryRejoins_ends (limit : ℚ) (js : List ℕ) (s : Search) (hs : Fruitless maths cfg p s) :
    Ends maths cfg p limit js (tryRejoins maths cfg p limit js s) := by
  induction js generalizing s with
  | nil => exact Or.inl ⟨s, rfl, hs, by simp⟩
  | cons j js ih =>
    rw [tryRejoins]
    by_cases hfar : cfg.maxRejoinArc < arc maths p j
    · rw [if_pos hfar]
      refine Or.inl ⟨s, rfl, hs, ?_⟩
      -- what lies after a pose that is too far is too far
      intro hmono hsorted i hi hopen
      have hji : j ≤ i := by
        rcases List.mem_cons.1 hi with rfl | hi
        · exact le_refl _
        · exact le_of_lt ((List.pairwise_cons.1 hsorted).1 i hi)
      exact absurd hopen.1 (not_le.2 (lt_of_lt_of_le hfar (hmono hji)))
    · rw [if_neg hfar]
      cases hblocked : bodyBlockedAt maths p j with
      | true =>
        rw [if_pos rfl]
        refine Ends.cons maths cfg p ?_ (ih s hs)
        intro hopen
        exact absurd (hopen.2.symm.trans hblocked) (by simp)
      | false =>
        rw [if_neg (by simp)]
        rcases tryReverses_cases maths cfg p j (reverses cfg 0 limit) none s
            (by intro f hf; cases hf) hs with
          ⟨s', heq, hs', hnone⟩ | ⟨s', heq, hs', hend⟩ |
          ⟨s', before, r, after, heq, hs', hlt, hrs, hhit, hbefore⟩
        · rw [heq]
          exact Ends.cons maths cfg p (fun _ => hnone) (ih s' hs')
        · rw [heq]
          exact Or.inr (Or.inl ⟨s', rfl, hs', hend⟩)
        · rw [heq]
          exact Or.inr (Or.inr ⟨s', [], j, js, before, r, after, rfl, hs', hlt, rfl,
            ⟨not_lt.1 hfar, hblocked⟩, hrs, hhit, hbefore, by simp⟩)

/-! ## The plan -/

/-- The first plan pose within the scan whose body covers a lethal cell. -/
def FirstBlocked (b : ℕ) : Prop :=
  b < p.plan.length ∧ bodyBlockedAt maths p b = true ∧
    (∀ i ≤ b, arc maths p i ≤ cfg.blockageScan) ∧ ∀ i < b, bodyBlockedAt maths p i = false

/-- A pair the search looks for, past a blockage at `b`. -/
structure Feasible (b j : ℕ) (r : ℚ) : Prop where
  past : b < j
  inPlan : j < p.plan.length
  arc : arc maths p j ≤ cfg.maxRejoinArc
  clear : bodyBlockedAt maths p j = false
  followable : followableFrom maths p j = true
  reverse : Backable cfg p r
  passes : Passes maths cfg p (toFallbackPose maths (planPose p j)) (backedUp maths p.robot r)

theorem firstBlocked_spec {b : ℕ} (h : firstBlocked maths cfg p = some b) :
    FirstBlocked maths cfg p b := by
  unfold firstBlocked at h
  have hid : (List.range p.plan.length).map id = List.range p.plan.length := List.map_id _
  obtain ⟨m, hm, heq, hpass, _⟩ := takeWhile_range id
    (fun i => decide (arc maths p i ≤ cfg.blockageScan)) p.plan.length
  rw [hid, List.map_id] at heq
  rw [heq] at h
  obtain ⟨hb, before, after, hsplit, hbefore⟩ := List.find?_eq_some_iff_append.1 h
  have hlen : before.length = b := by
    have hget : (List.range m)[before.length]? = some b := by
      rw [hsplit]
      simp
    obtain ⟨hlt, hval⟩ := List.getElem?_eq_some_iff.1 hget
    simpa using hval
  have hbm : b < m := by
    rw [← List.mem_range, hsplit]
    simp
  refine ⟨by omega, hb, ?_, ?_⟩
  · intro i hi
    exact of_decide_eq_true (hpass i (by omega))
  · intro i hi
    have hmem : i ∈ before := by
      have htake : before = (List.range m).take b := by
        rw [hsplit, ← hlen, List.take_left']
        rfl
      rw [htake, List.take_range, List.mem_range]
      omega
    simpa using hbefore i hmem

/-- A hit among open rejoins is what the search is for. -/
theorem Feasible.hit {b j : ℕ} (h : Feasible maths cfg p b j r) :
    Open maths cfg p j ∧ r ∈ reverses cfg 0 (reverseLimit cfg p) ∧ Hit maths cfg p j r :=
  ⟨⟨h.arc, h.clear⟩, (mem_reverses cfg p).2 h.reverse, h.passes, h.followable⟩

/-- The search over the rejoins past `b`, once there is a blockage in a turn. -/
def searchPast (b : ℕ) : Outcome :=
  tryRejoins maths cfg p (reverseLimit cfg p)
    (List.range' (b + 1) (p.plan.length - 2 - (b + 1)))
    { evaluated := 0, examined := [],
      why := "no clear plan pose past the blockage within the search" }

/-- Everything `PlanTurnFallback` can return. -/
theorem planTurnFallback_cases :
    ((planTurnFallback maths cfg p).verdict ≠ .planned ∧
      (planTurnFallback maths cfg p).verdict ≠ .noRejoin ∧
      (planTurnFallback maths cfg p).evaluated = 0 ∧
      (planTurnFallback maths cfg p).examined = []) ∨
    (∃ b s, firstBlocked maths cfg p = some b ∧
      (searchPast maths cfg p b = .next s ∨ searchPast maths cfg p b = .exhausted s) ∧
      (planTurnFallback maths cfg p).verdict = .noRejoin ∧
      (planTurnFallback maths cfg p).blocked = b ∧
      (planTurnFallback maths cfg p).evaluated = s.evaluated ∧
      (planTurnFallback maths cfg p).examined = s.examined) ∨
    (∃ b s j r c, firstBlocked maths cfg p = some b ∧
      searchPast maths cfg p b = .planned s j r c ∧
      (planTurnFallback maths cfg p).verdict = .planned ∧
      (planTurnFallback maths cfg p).blocked = b ∧
      (planTurnFallback maths cfg p).rejoin = j ∧
      (planTurnFallback maths cfg p).reverse = r ∧
      (planTurnFallback maths cfg p).evaluated = s.evaluated ∧
      (planTurnFallback maths cfg p).examined = s.examined) := by
  unfold planTurnFallback
  split
  · exact Or.inl ⟨by simp, by simp, rfl, rfl⟩
  · cases hfirst : firstBlocked maths cfg p with
    | none => exact Or.inl ⟨by simp, by simp, rfl, rfl⟩
    | some b =>
      by_cases hturn : planHeadingSweep maths cfg p b < cfg.minTurn
      · left
        simp [hturn]
      · simp only [if_neg hturn]
        right
        cases hsearch : searchPast maths cfg p b with
        | next s =>
          have hrun := hsearch
          unfold searchPast at hrun
          rw [hrun]
          exact Or.inl ⟨b, s, rfl, Or.inl hsearch, rfl, rfl, rfl, rfl⟩
        | exhausted s =>
          have hrun := hsearch
          unfold searchPast at hrun
          rw [hrun]
          exact Or.inl ⟨b, s, rfl, Or.inr hsearch, rfl, rfl, rfl, rfl⟩
        | planned s j r c =>
          have hrun := hsearch
          unfold searchPast at hrun
          rw [hrun]
          exact Or.inr ⟨b, s, j, r, c, rfl, hsearch, rfl, rfl, rfl, rfl, rfl, rfl⟩

theorem searchPast_ends (b : ℕ) :
    Ends maths cfg p (reverseLimit cfg p) (List.range' (b + 1) (p.plan.length - 2 - (b + 1)))
      (searchPast maths cfg p b) :=
  tryRejoins_ends maths cfg p _ _ _ ⟨rfl, Nat.zero_le _, by simp⟩

/-- The hit the search stops at is the least pair. -/
theorem planned_least {b : ℕ} {s : Search} {j : ℕ} {c : Candidate}
    (h : searchPast maths cfg p b = .planned s j r c) :
    Feasible maths cfg p b j r ∧
      ∀ j' r', Feasible maths cfg p b j' r' → j < j' ∨ (j = j' ∧ r ≤ r') := by
  rcases searchPast_ends maths cfg p b with ⟨s', heq, _⟩ | ⟨s', heq, _⟩ |
    ⟨s', earlier, i, later, before, x, after, heq, _, _, hjs, hopen, hrs, hhit, hbefore, hearlier⟩
  · rw [h] at heq
    cases heq
  · rw [h] at heq
    cases heq
  · rw [h] at heq
    injection heq with _ hj hr _
    subst hj hr
    have hmem : j ∈ List.range' (b + 1) (p.plan.length - 2 - (b + 1)) := by
      rw [hjs]
      simp
    obtain ⟨hlow, hhigh⟩ := List.mem_range'_1.1 hmem
    have hback : Backable cfg p r := by
      apply (mem_reverses cfg p).1
      rw [hrs]
      simp
    refine ⟨⟨by omega, by omega, hopen.1, hopen.2, hhit.2, hback, hhit.1⟩, ?_⟩
    intro j' r' hother
    obtain ⟨hopen', hr', hhit'⟩ := hother.hit
    rcases Nat.lt_trichotomy j j' with hlt | rfl | hgt
    · exact Or.inl hlt
    · -- the reverses before `r` were tried, and the ones after it are longer
      refine Or.inr ⟨rfl, ?_⟩
      have hsorted := reverses_pairwise cfg (reverseLimit cfg p)
      rw [hrs] at hr' hsorted
      rcases List.mem_append.1 hr' with hr' | hr'
      · exact absurd hhit' (hbefore r' hr')
      · rcases List.mem_cons.1 hr' with rfl | hr'
        · exact le_refl _
        · exact le_of_lt
            ((List.pairwise_cons.1 (List.pairwise_append.1 hsorted).2.1).1 r' hr')
    · -- a rejoin before `j` was passed by
      have hmem' : j' ∈ List.range' (b + 1) (p.plan.length - 2 - (b + 1)) :=
        List.mem_range'_1.2 ⟨hother.past, by omega⟩
      have hsorted : (List.range' (b + 1) (p.plan.length - 2 - (b + 1))).Pairwise (· < ·) :=
        List.pairwise_lt_range'
      rw [hjs] at hmem' hsorted
      rcases List.mem_append.1 hmem' with hmem' | hmem'
      · exact absurd hhit' (hearlier j' hmem' hopen' r' hr')
      · have hle : j ≤ j' := by
          rcases List.mem_cons.1 hmem' with rfl | hmem'
          · exact le_refl _
          · exact le_of_lt
              ((List.pairwise_cons.1 (List.pairwise_append.1 hsorted).2.1).1 j' hmem')
        omega

theorem arc_monotone (hhypot : ∀ a b, 0 ≤ maths.hypot a b) : Monotone (arc maths p) := by
  apply monotone_nat_of_le_succ
  intro i
  show arc maths p i ≤ arc maths p i + _
  exact le_add_of_nonneg_right (hhypot _ _)

/-- The least skipped, least reversed manoeuvre is planned; without one, none of those examined
would have done, and none at all if the budget lasted. -/
theorem planTurnFallback_least :
    ((planTurnFallback maths cfg p).verdict = .planned →
      FirstBlocked maths cfg p (planTurnFallback maths cfg p).blocked ∧
      Feasible maths cfg p (planTurnFallback maths cfg p).blocked
        (planTurnFallback maths cfg p).rejoin (planTurnFallback maths cfg p).reverse ∧
      ∀ j r, Feasible maths cfg p (planTurnFallback maths cfg p).blocked j r →
        (planTurnFallback maths cfg p).rejoin < j ∨
          ((planTurnFallback maths cfg p).rejoin = j ∧
            (planTurnFallback maths cfg p).reverse ≤ r)) ∧
    ((planTurnFallback maths cfg p).verdict = .noRejoin →
      FirstBlocked maths cfg p (planTurnFallback maths cfg p).blocked ∧
      (∀ x ∈ (planTurnFallback maths cfg p).examined,
        ¬ Feasible maths cfg p (planTurnFallback maths cfg p).blocked x.1 x.2) ∧
      ((∀ a b, 0 ≤ maths.hypot a b) →
        (planTurnFallback maths cfg p).evaluated < cfg.maxEvaluations →
        ∀ j r, j + 2 < p.plan.length →
          ¬ Feasible maths cfg p (planTurnFallback maths cfg p).blocked j r)) ∧
    (planTurnFallback maths cfg p).evaluated = (planTurnFallback maths cfg p).examined.length ∧
    (planTurnFallback maths cfg p).evaluated ≤ cfg.maxEvaluations := by
  rcases planTurnFallback_cases maths cfg p with
    ⟨hplanned, hno, hevaluated, hexamined⟩ |
    ⟨b, s, hfirst, hsearch, hverdict, hblocked, hevaluated, hexamined⟩ |
    ⟨b, s, j, r, c, hfirst, hsearch, hverdict, hblocked, hj, hr, hevaluated, hexamined⟩
  · refine ⟨fun h => absurd h hplanned, fun h => absurd h hno, ?_, ?_⟩
    · rw [hevaluated, hexamined]
      rfl
    · rw [hevaluated]
      exact Nat.zero_le _
  · rw [hverdict, hblocked, hevaluated, hexamined]
    rcases searchPast_ends maths cfg p b with ⟨s', heq, hs', hnone⟩ | ⟨s', heq, hs', hend⟩ |
      ⟨s', _, _, _, _, _, _, heq, _⟩
    · obtain rfl : s = s' := by
        rcases hsearch with hsearch | hsearch
        · rw [hsearch] at heq
          injection heq
        · rw [hsearch] at heq
          cases heq
      refine ⟨by simp, fun _ => ⟨firstBlocked_spec maths cfg p hfirst, ?_, ?_⟩, hs'.count,
        hs'.budget⟩
      · intro x hx h
        exact hs'.missed x hx h.hit.2.2
      · intro hhypot _ j r hj h
        obtain ⟨hopen, hr, hhit⟩ := h.hit
        have hpast := h.past
        refine hnone (arc_monotone maths p hhypot) List.pairwise_lt_range' j
          (List.mem_range'_1.2 ⟨h.past, by omega⟩) hopen r hr hhit
    · obtain rfl : s = s' := by
        rcases hsearch with hsearch | hsearch
        · rw [hsearch] at heq
          cases heq
        · rw [hsearch] at heq
          injection heq
      refine ⟨by simp, fun _ => ⟨firstBlocked_spec maths cfg p hfirst, ?_, ?_⟩, hs'.count,
        hs'.budget⟩
      · intro x hx h
        exact hs'.missed x hx h.hit.2.2
      · intro _ hlt
        exact absurd hlt (not_lt.2 hend)
    · rcases hsearch with hsearch | hsearch
      · rw [hsearch] at heq
        cases heq
      · rw [hsearch] at heq
        cases heq
  · rw [hverdict, hblocked, hj, hr, hevaluated, hexamined]
    have hb := firstBlocked_spec maths cfg p hfirst
    obtain ⟨hfeasible, hleast⟩ := planned_least maths cfg p hsearch
    rcases searchPast_ends maths cfg p b with ⟨s', heq, _⟩ | ⟨s', heq, _⟩ |
      ⟨s', _, _, _, _, _, _, heq, hs', hlt, _⟩
    · rw [hsearch] at heq
      cases heq
    · rw [hsearch] at heq
      cases heq
    · rw [hsearch] at heq
      injection heq with hs _ _ _
      refine ⟨fun _ => ⟨hb, hfeasible, hleast⟩, by simp, ?_, ?_⟩
      · rw [hs]
        simp [Search.count, hs'.count]
      · rw [hs]
        exact hlt

end

end Ftc
end Mowgli
