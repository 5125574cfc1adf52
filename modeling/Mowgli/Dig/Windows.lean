import Mathlib.Analysis.Real.Sqrt
import Mathlib.Tactic.LinearCombination
import Mowgli.Lib.Trace

/-!
# Windows — wheels that turn where the map does not move

`dig_detector.hpp`, over exact arithmetic: `DigDecide` compares what the worst wheel claims over a
window with the net displacement of the fused pose since the anchor. **The anchor is the pose of
the first tick of the window, and the step that led to it counts for the wheels.**

`std::hypot` is a parameter. What is not finite is `none`.
-/

namespace Mowgli
namespace Dig

section Decide

variable (K : Type)

structure DigDetectorCfg where
  enabled : Bool := true
  window_s : K
  min_cmd_speed : K
  min_wheel_dist : K
  progress_fraction : K
  max_pos_sigma : K
  max_yaw_rate : K

/-- What `DigDecide` is given. -/
structure Tick where
  cmd_speed : K
  wheel_step : K
  map_x : K
  map_y : K
  pos_sigma : Option K
  yaw_rate : Option K
  dt : K
  /-- `independent_x` and `independent_y`, both finite. -/
  independent : Option (K × K)

inductive DigAction where
  | kNone
  | kDig
  deriving DecidableEq

variable [Field K]

structure DigVerdict where
  action : DigAction := .kNone
  wheel_dist : K := 0
  map_dist : K := 0
  independent_dist : Option K := none

structure DigDetectorState where
  window_time : K := 0
  wheel_dist : K := 0
  /-- `anchor_x` and `anchor_y`, with `have_anchor`. -/
  anchor : Option (K × K) := none
  independent_anchor : Option (K × K) := none

variable {K} [LinearOrder K]

/-- A value that is known and not above a bound. -/
def atMost (bound : K) : Option K → Bool
  | none => false
  | some value => value ≤ bound

def below (bound : K) : Option K → Bool
  | none => false
  | some value => value < bound

variable (hypot : K → K → K) (cfg : DigDetectorCfg K)

/-- The first tick of a window sets the anchors. -/
def DigDetectorState.anchored (st : DigDetectorState K) (tick : Tick K) : DigDetectorState K :=
  if st.anchor.isNone then
    { st with anchor := some (tick.map_x, tick.map_y), independent_anchor := tick.independent }
  else st

def DigDetectorState.accumulated (st : DigDetectorState K) (tick : Tick K) : DigDetectorState K :=
  { st with
    window_time := st.window_time + tick.dt
    wheel_dist := st.wheel_dist + |tick.wheel_step| }

/-- How far from an anchor, if both are known. -/
def fromAnchor (anchor position : Option (K × K)) : Option K :=
  match anchor, position with
  | some a, some p => some (hypot (p.1 - a.1) (p.2 - a.2))
  | _, _ => none

/-- The comparison at the end of a window. -/
def DigDetectorState.judged (st : DigDetectorState K) (tick : Tick K) : DigVerdict K :=
  let map_dist := (fromAnchor hypot st.anchor (some (tick.map_x, tick.map_y))).getD 0
  let independent_dist := fromAnchor hypot st.independent_anchor tick.independent
  let wheels_claim_travel : Bool := cfg.min_wheel_dist ≤ st.wheel_dist
  let map_disagrees : Bool := map_dist < cfg.progress_fraction * st.wheel_dist
  let independent_disagrees :=
    st.independent_anchor.isNone || below (cfg.progress_fraction * st.wheel_dist) independent_dist
  { action :=
      if wheels_claim_travel && map_disagrees && independent_disagrees then .kDig else .kNone
    wheel_dist := st.wheel_dist
    map_dist
    independent_dist }

def DigDecide (st : DigDetectorState K) (tick : Tick K) : DigVerdict K × DigDetectorState K :=
  if cfg.enabled = false ∨ tick.dt ≤ 0 then ({}, st)
  else if atMost cfg.max_pos_sigma tick.pos_sigma = false then ({}, {})
  else if atMost cfg.max_yaw_rate (tick.yaw_rate.map abs) = false then ({}, {})
  else if |tick.cmd_speed| < cfg.min_cmd_speed then ({}, {})
  else
    let st := (st.anchored tick).accumulated tick
    if st.window_time < cfg.window_s then ({}, st) else (st.judged hypot cfg tick, {})

/-- Ticks in their order, and what was returned for each. -/
def decisions (st : DigDetectorState K) : List (Tick K) → List (DigVerdict K)
  | [] => []
  | tick :: rest =>
    (DigDecide hypot cfg st tick).1 :: decisions (DigDecide hypot cfg st tick).2 rest

end Decide

/-- The defaults of `DigDetectorCfg`. -/
def DigDetectorCfg.default : DigDetectorCfg ℚ where
  window_s := 12 / 10
  min_cmd_speed := 5 / 100
  min_wheel_dist := 15 / 100
  progress_fraction := 35 / 100
  max_pos_sigma := 10 / 100
  max_yaw_rate := 20 / 100

/-- A length, for what lies on one of the axes. -/
def alongAxis (x y : ℚ) : ℚ :=
  (if x < 0 then -x else x) + if y < 0 then -y else y

/-!
## What a verdict of `DigDecide` rests on

The state is the summary of an open window: the ticks in a row that passed the gates and are
together shorter than `window_s` (`stateAfter_eq`). A verdict is about the window that a tick
closes.

On a robot that does not slip the map moves by what the wheels claim, **less the step of the first
tick**: the anchor is taken behind it. A window whose first tick is most of it is read as a dig.
-/

open Trace

variable {K : Type} [Field K] [LinearOrder K]

/-! ## Windows, the last tick first -/

def duration : List (Tick K) → K
  | [] => 0
  | t :: w => duration w + t.dt

def travel : List (Tick K) → K
  | [] => 0
  | t :: w => travel w + |t.wheel_step|

/-- From the pose of the first tick to the pose of the last. -/
def displacement (hypot : K → K → K) (w : List (Tick K)) : K :=
  match w.head?, w.getLast? with
  | some last, some first => hypot (last.map_x - first.map_x) (last.map_y - first.map_y)
  | _, _ => 0

/-- The same of the independent position, where it is known at both ends. -/
def independentMove (hypot : K → K → K) (w : List (Tick K)) : Option K :=
  fromAnchor hypot (w.getLast?.bind Tick.independent) (w.head?.bind Tick.independent)

/-- The trust, turn and command gates. -/
structure Gated (cfg : DigDetectorCfg K) (t : Tick K) : Prop where
  enabled : cfg.enabled = true
  trust : atMost cfg.max_pos_sigma t.pos_sigma = true
  turn : atMost cfg.max_yaw_rate (t.yaw_rate.map abs) = true
  command : cfg.min_cmd_speed ≤ |t.cmd_speed|

instance (cfg : DigDetectorCfg K) (t : Tick K) : Decidable (Gated cfg t) :=
  decidable_of_iff (cfg.enabled = true ∧ atMost cfg.max_pos_sigma t.pos_sigma = true ∧
      atMost cfg.max_yaw_rate (t.yaw_rate.map abs) = true ∧ cfg.min_cmd_speed ≤ |t.cmd_speed|)
    ⟨fun h => ⟨h.1, h.2.1, h.2.2.1, h.2.2.2⟩, fun h => ⟨h.1, h.2, h.3, h.4⟩⟩

/-- The window that is open after these ticks. -/
def openWindow (cfg : DigDetectorCfg K) : List (Tick K) → List (Tick K)
  | [] => []
  | t :: past =>
    if Gated cfg t ∧ duration (t :: openWindow cfg past) < cfg.window_s then t :: openWindow cfg past
    else []

/-- The tick closes a window. -/
def Closes (cfg : DigDetectorCfg K) (past : List (Tick K)) (t : Tick K) : Prop :=
  Gated cfg t ∧ cfg.window_s ≤ duration (t :: openWindow cfg past)

/-! ## What is asked for -/

/-- The ticks end with a window that is evidence of a dig. -/
structure Evidence (hypot : K → K → K) (cfg : DigDetectorCfg K) (w : List (Tick K)) : Prop where
  gated : ∀ t ∈ w, Gated cfg t
  long : cfg.window_s ≤ duration w
  wheels : cfg.min_wheel_dist ≤ travel w
  map : displacement hypot w < cfg.progress_fraction * travel w
  independent : ∀ d, independentMove hypot w = some d → d < cfg.progress_fraction * travel w

/-- `std::hypot` over exact arithmetic. -/
structure IsHypot (hypot : K → K → K) : Prop where
  nonneg : ∀ x y, 0 ≤ hypot x y
  square : ∀ x y, hypot x y * hypot x y = x * x + y * y

/-- Where the fused pose was before the next tick. -/
def poseAfter (start : K × K) : List (Tick K) → K × K
  | [] => start
  | t :: _ => (t.map_x, t.map_y)

/-- No slip: on every tick the fused pose goes on along the line by the step of the wheels. -/
def Straight (dir start : K × K) : List (Tick K) → Prop :=
  Always fun t past => 0 ≤ t.wheel_step ∧
    t.map_x = (poseAfter start past).1 + t.wheel_step * dir.1 ∧
    t.map_y = (poseAfter start past).2 + t.wheel_step * dir.2

/-- Too little for a dig, or most of the travel is behind the anchor, or an independent position
    that was known at the anchor does not confirm a dig. -/
def Enough (hypot : K → K → K) (cfg : DigDetectorCfg K) (w : List (Tick K)) : Prop :=
  travel w < cfg.min_wheel_dist ∨
    (∀ first ∈ w.getLast?, first.wheel_step ≤ (1 - cfg.progress_fraction) * travel w) ∨
    ((w.getLast?.bind Tick.independent).isSome = true ∧
      ∀ d, independentMove hypot w = some d → cfg.progress_fraction * travel w ≤ d)

/-! ## The state is a summary -/

def summary (w : List (Tick K)) : DigDetectorState K :=
  match w.getLast? with
  | none => {}
  | some first =>
    { window_time := duration w
      wheel_dist := travel w
      anchor := some (first.map_x, first.map_y)
      independent_anchor := first.independent }

variable (hypot : K → K → K) (cfg : DigDetectorCfg K)

/-- The state after ticks, the last one first. -/
def stateAfter : List (Tick K) → DigDetectorState K
  | [] => {}
  | t :: past => (DigDecide hypot cfg (stateAfter past) t).2

def verdictAt (past : List (Tick K)) (t : Tick K) : DigVerdict K :=
  (DigDecide hypot cfg (stateAfter hypot cfg past) t).1

variable {hypot cfg} {w past : List (Tick K)} {t : Tick K}

theorem summary_cons (t : Tick K) (w : List (Tick K)) :
    ((summary w).anchored t).accumulated t = summary (t :: w) := by
  cases w with
  | nil => rfl
  | cons s w =>
    obtain ⟨first, hfirst⟩ : ∃ first, (s :: w).getLast? = some first :=
      ⟨_, List.getLast?_eq_some_getLast (by simp)⟩
    simp only [summary, List.getLast?_cons_cons, hfirst]
    rfl

theorem decide_gated (hdt : 0 < t.dt) (h : Gated cfg t) (w : List (Tick K)) :
    DigDecide hypot cfg (summary w) t =
      if duration (t :: w) < cfg.window_s then ({}, summary (t :: w))
      else ((summary (t :: w)).judged hypot cfg t, {}) := by
  have htime : (summary (t :: w)).window_time = duration (t :: w) := by
    simp [summary, List.getLast?_cons]
  unfold DigDecide
  rw [if_neg (by simp [h.enabled, hdt]), if_neg (by simp [h.trust]), if_neg (by simp [h.turn]),
    if_neg (not_lt.2 h.command)]
  simp only [summary_cons, htime]

theorem decide_ungated (hdt : 0 < t.dt) (h : ¬Gated cfg t) (henabled : cfg.enabled = true)
    (st : DigDetectorState K) : DigDecide hypot cfg st t = ({}, {}) := by
  unfold DigDecide
  rw [if_neg (by simp [henabled, hdt])]
  split
  · rfl
  · split
    · rfl
    · split
      · rfl
      · rename_i htrust hturn hcommand
        exact absurd ⟨henabled, by simpa using htrust, by simpa using hturn, not_lt.1 hcommand⟩ h

theorem decide_disabled (henabled : cfg.enabled = false) (st : DigDetectorState K) :
    DigDecide hypot cfg st t = ({}, st) := by
  rw [DigDecide, if_pos (.inl henabled)]

theorem stateAfter_eq (hpos : ∀ t ∈ past, 0 < t.dt) :
    stateAfter hypot cfg past = summary (openWindow cfg past) := by
  induction past with
  | nil => rfl
  | cons t past ih =>
    obtain ⟨hdt, hpast⟩ := List.forall_mem_cons.1 hpos
    rw [stateAfter, ih hpast, openWindow]
    by_cases hg : Gated cfg t
    · rw [decide_gated hdt hg]
      by_cases hlong : duration (t :: openWindow cfg past) < cfg.window_s
      · rw [if_pos hlong, if_pos ⟨hg, hlong⟩]
      · rw [if_neg hlong, if_neg fun h => hlong h.2]
        rfl
    · rw [if_neg fun h => hg h.1]
      cases henabled : cfg.enabled with
      | true =>
        rw [decide_ungated hdt hg henabled]
        rfl
      | false =>
        have hnone : openWindow cfg past = [] := by
          cases past with
          | nil => rfl
          | cons s past =>
            rw [openWindow, if_neg]
            intro h
            rw [h.1.enabled] at henabled
            exact absurd henabled (by simp)
        rw [decide_disabled henabled, hnone]

/-! ## One verdict -/

/-- The comparison at the end of a window, by its ticks. -/
theorem judged_iff (t : Tick K) (w : List (Tick K)) :
    ((summary (t :: w)).judged hypot cfg t).action = .kDig ↔
      cfg.min_wheel_dist ≤ travel (t :: w) ∧
        displacement hypot (t :: w) < cfg.progress_fraction * travel (t :: w) ∧
        (((t :: w).getLast?.bind Tick.independent).isSome = true →
          ∃ d, independentMove hypot (t :: w) = some d ∧
            d < cfg.progress_fraction * travel (t :: w)) := by
  obtain ⟨first, hfirst⟩ : ∃ first, (t :: w).getLast? = some first :=
    ⟨_, List.getLast?_eq_some_getLast (by simp)⟩
  have hmove : independentMove hypot (t :: w) =
      fromAnchor hypot first.independent t.independent := by
    rw [independentMove, hfirst]
    rfl
  have hmap : displacement hypot (t :: w) =
      hypot (t.map_x - first.map_x) (t.map_y - first.map_y) := by
    rw [displacement, hfirst]
    rfl
  rw [hmove, hmap, hfirst]
  simp only [summary, hfirst, DigDetectorState.judged, fromAnchor, Option.getD_some,
    Option.bind_some]
  cases first.independent with
  | none => simp
  | some a =>
    cases t.independent with
    | none => simp [below]
    | some p => simp [below, and_assoc]

theorem verdictAt_iff (hpos : ∀ s ∈ t :: past, 0 < s.dt) :
    (verdictAt hypot cfg past t).action = .kDig ↔
      Closes cfg past t ∧
        ((summary (t :: openWindow cfg past)).judged hypot cfg t).action = .kDig := by
  obtain ⟨hdt, hpast⟩ := List.forall_mem_cons.1 hpos
  rw [verdictAt, stateAfter_eq hpast]
  by_cases hg : Gated cfg t
  · rw [decide_gated hdt hg]
    by_cases hlong : duration (t :: openWindow cfg past) < cfg.window_s
    · rw [if_pos hlong]
      exact iff_of_false (by simp) fun h => absurd hlong (not_lt.2 h.1.2)
    · rw [if_neg hlong]
      exact (and_iff_right ⟨hg, not_lt.1 hlong⟩).symm
  · refine iff_of_false ?_ fun h => hg h.1.1
    cases henabled : cfg.enabled with
    | true =>
      rw [decide_ungated hdt hg henabled]
      simp
    | false =>
      rw [decide_disabled henabled]
      simp

/-! ## Every dig has its evidence -/

theorem openWindow_prefix (past : List (Tick K)) : openWindow cfg past <+: past := by
  induction past with
  | nil => exact List.prefix_refl []
  | cons t past ih =>
    rw [openWindow]
    split
    · exact (List.prefix_cons_inj t).2 ih
    · exact List.nil_prefix

theorem gated_openWindow (past : List (Tick K)) : ∀ t ∈ openWindow cfg past, Gated cfg t := by
  induction past with
  | nil => simp [openWindow]
  | cons t past ih =>
    rw [openWindow]
    split
    · rename_i h
      exact List.forall_mem_cons.2 ⟨h.1, ih⟩
    · simp

theorem evidence_of_dig (hpos : ∀ s ∈ t :: past, 0 < s.dt)
    (h : (verdictAt hypot cfg past t).action = .kDig) :
    Evidence hypot cfg (t :: openWindow cfg past) := by
  obtain ⟨⟨hg, hlong⟩, hdig⟩ := (verdictAt_iff hpos).1 h
  obtain ⟨hwheels, hmap, hind⟩ := (judged_iff t _).1 hdig
  refine ⟨List.forall_mem_cons.2 ⟨hg, gated_openWindow past⟩, hlong, hwheels, hmap, fun d hd => ?_⟩
  have hknown : ((t :: openWindow cfg past).getLast?.bind Tick.independent).isSome = true := by
    cases hfirst : (t :: openWindow cfg past).getLast?.bind Tick.independent with
    | some a => rfl
    | none =>
      rw [independentMove, hfirst] at hd
      exact absurd hd (by simp [fromAnchor])
  obtain ⟨d', hd', hlt⟩ := hind hknown
  rw [hd] at hd'
  rwa [Option.some.inj hd']

/-! ## No slip -/

section Slip

variable [IsStrictOrderedRing K] {dir start : K × K} {rest : List (Tick K)}

theorem travel_nonneg (w : List (Tick K)) : 0 ≤ travel w := by
  induction w with
  | nil => exact le_refl 0
  | cons t w ih => exact add_nonneg ih (abs_nonneg _)

variable {first : Tick K}

theorem step_le_travel (h : first ∈ w) : first.wheel_step ≤ travel w := by
  induction w with
  | nil => simp at h
  | cons t w ih =>
    rcases List.mem_cons.1 h with rfl | h
    · have := travel_nonneg w
      have := le_abs_self first.wheel_step
      simp only [travel]
      linarith
    · have := ih h
      have := abs_nonneg t.wheel_step
      simp only [travel]
      linarith

/-- Along the line the last pose is ahead of the first one by the steps in between. -/
theorem Straight.ahead {last : Tick K} (h : Straight dir start (w ++ rest))
    (hlast : w.head? = some last) (hfirst : w.getLast? = some first) :
    last.map_x - first.map_x = (travel w - first.wheel_step) * dir.1 ∧
      last.map_y - first.map_y = (travel w - first.wheel_step) * dir.2 := by
  induction w generalizing last with
  | nil => simp at hlast
  | cons t w ih =>
    obtain rfl : t = last := by simpa using hlast
    obtain ⟨⟨hstep, hx, hy⟩, hpast⟩ := h
    cases w with
    | nil =>
      obtain rfl : t = first := by simpa using hfirst
      simp [travel, abs_of_nonneg hstep]
    | cons s w =>
      obtain ⟨ihx, ihy⟩ := ih hpast rfl (by simpa using hfirst)
      have hx : t.map_x = s.map_x + t.wheel_step * dir.1 := hx
      have hy : t.map_y = s.map_y + t.wheel_step * dir.2 := hy
      rw [show travel (t :: s :: w) = travel (s :: w) + t.wheel_step by
        rw [travel, abs_of_nonneg hstep]]
      constructor
      · linear_combination hx + ihx
      · linear_combination hy + ihy

theorem IsHypot.scaled (h : IsHypot hypot) (hdir : dir.1 * dir.1 + dir.2 * dir.2 = 1) {c : K}
    (hc : 0 ≤ c) : hypot (c * dir.1) (c * dir.2) = c := by
  refine (mul_self_inj (h.nonneg _ _) hc).1 ?_
  rw [h.square]
  linear_combination c * c * hdir

/-- The map side of a window misses the step of its first tick. -/
theorem displacement_eq (hhypot : IsHypot hypot) (hdir : dir.1 * dir.1 + dir.2 * dir.2 = 1)
    (h : Straight dir start (w ++ rest)) (hfirst : w.getLast? = some first) :
    displacement hypot w = travel w - first.wheel_step := by
  obtain ⟨last, hlast⟩ : ∃ last, w.head? = some last := by
    cases w with
    | nil => simp at hfirst
    | cons t w => exact ⟨t, rfl⟩
  obtain ⟨hx, hy⟩ := h.ahead hlast hfirst
  have hle := step_le_travel (List.mem_of_getLast? hfirst)
  rw [displacement, hlast, hfirst]
  simp only [hx, hy]
  exact hhypot.scaled hdir (sub_nonneg.2 hle)

theorem not_dig_iff_enough (hhypot : IsHypot hypot) (hdir : dir.1 * dir.1 + dir.2 * dir.2 = 1)
    (h : Straight dir start (t :: w ++ rest)) :
    ((summary (t :: w)).judged hypot cfg t).action ≠ .kDig ↔ Enough hypot cfg (t :: w) := by
  obtain ⟨first, hfirst⟩ : ∃ first, (t :: w).getLast? = some first :=
    ⟨_, List.getLast?_eq_some_getLast (by simp)⟩
  have hmap : displacement hypot (t :: w) < cfg.progress_fraction * travel (t :: w) ↔
      ¬first.wheel_step ≤ (1 - cfg.progress_fraction) * travel (t :: w) := by
    rw [displacement_eq hhypot hdir h hfirst, not_le, sub_mul, one_mul, sub_lt_comm]
  have hfirst' : (∀ s ∈ (t :: w).getLast?, s.wheel_step ≤
      (1 - cfg.progress_fraction) * travel (t :: w)) ↔
      first.wheel_step ≤ (1 - cfg.progress_fraction) * travel (t :: w) := by
    rw [hfirst]
    simp
  rw [ne_eq, judged_iff, hmap, Enough, hfirst']
  simp only [not_and_or, not_le, not_exists, not_lt, Classical.not_imp, ← imp_iff_not_or]

end Slip

/-! ## Whole logs -/

/-- Whatever the durations are: each dig has its evidence, and without slip there is no dig if and
    only if each window has enough. -/
theorem digs_iff [IsStrictOrderedRing K] (hypot : K → K → K) (hhypot : IsHypot hypot)
    (cfg : DigDetectorCfg K) (log : List (Tick K)) (hpos : ∀ t ∈ log, 0 < t.dt) :
    Always (fun t past => (verdictAt hypot cfg past t).action = .kDig →
        Evidence hypot cfg (t :: openWindow cfg past)) log ∧
      ∀ dir start : K × K, dir.1 * dir.1 + dir.2 * dir.2 = 1 → Straight dir start log →
        (Always (fun t past => (verdictAt hypot cfg past t).action = .kNone) log ↔
          Always (fun t past =>
            Closes cfg past t → Enough hypot cfg (t :: openWindow cfg past)) log) := by
  constructor
  · induction log with
    | nil => trivial
    | cons t past ih => exact ⟨evidence_of_dig hpos, ih (List.forall_mem_cons.1 hpos).2⟩
  · intro dir start hdir hstraight
    induction log with
    | nil => exact Iff.rfl
    | cons t past ih =>
      refine and_congr ?_ (ih (List.forall_mem_cons.1 hpos).2 hstraight.2)
      obtain ⟨rest, hrest⟩ : openWindow cfg past <+: past := openWindow_prefix past
      have hwindow : Straight dir start (t :: openWindow cfg past ++ rest) := by
        rw [List.cons_append, hrest]
        exact hstraight
      have hnone : (verdictAt hypot cfg past t).action = .kNone ↔
          ¬(verdictAt hypot cfg past t).action = .kDig := by
        cases (verdictAt hypot cfg past t).action <;> simp
      show (verdictAt hypot cfg past t).action = .kNone ↔
        (Closes cfg past t → Enough hypot cfg (t :: openWindow cfg past))
      rw [hnone, verdictAt_iff hpos, not_and, ← not_dig_iff_enough hhypot hdir hwindow]

theorem isHypot_sqrt : IsHypot fun x y : ℝ => √(x * x + y * y) where
  nonneg _ _ := Real.sqrt_nonneg _
  square x y := Real.mul_self_sqrt (add_nonneg (mul_self_nonneg x) (mul_self_nonneg y))

/-- The wheels turn for a metre and the robot stands. -/
theorem digs_iff_standing :
    let hypot := fun x y : ℝ => √(x * x + y * y)
    let cfg : DigDetectorCfg ℝ :=
      { window_s := 1, min_cmd_speed := 1, min_wheel_dist := 1, progress_fraction := 1 / (1 + 1)
        max_pos_sigma := 1, max_yaw_rate := 1 }
    let log : List (Tick ℝ) :=
      [{ cmd_speed := 1, wheel_step := 1, map_x := 0, map_y := 0, pos_sigma := some 0
         yaw_rate := some 0, dt := 1, independent := some (0, 0) }]
    Always (fun t past => (verdictAt hypot cfg past t).action = .kDig →
        Evidence hypot cfg (t :: openWindow cfg past)) log ∧
      ∀ dir start : ℝ × ℝ, dir.1 * dir.1 + dir.2 * dir.2 = 1 → Straight dir start log →
        (Always (fun t past => (verdictAt hypot cfg past t).action = .kNone) log ↔
          Always (fun t past =>
            Closes cfg past t → Enough hypot cfg (t :: openWindow cfg past)) log) :=
  digs_iff (fun x y : ℝ => √(x * x + y * y)) isHypot_sqrt _ _ (by simp)

/-- A late tick of one second and one of a fifth, at one metre per second along the x axis. -/
def lateTicks : List (Tick ℚ) :=
  [{ cmd_speed := 1, wheel_step := 1 / 5, map_x := 6 / 5, map_y := 0, pos_sigma := some 0
     yaw_rate := some 0, dt := 1 / 5, independent := some (6 / 5, 0) },
   { cmd_speed := 1, wheel_step := 1, map_x := 1, map_y := 0, pos_sigma := some 0
     yaw_rate := some 0, dt := 1, independent := some (1, 0) }]

theorem dug_on_the_move :
    ¬∀ log : List (Tick ℚ), (∀ t ∈ log, 0 < t.dt ∧ t.dt ≤ 1) → Straight (1, 0) (0, 0) log →
      Always (fun t past =>
        (verdictAt alongAxis DigDetectorCfg.default past t).action = .kNone) log := by
  intro h
  have hstraight : Straight ((1 : ℚ), 0) (0, 0) lateTicks := by
    simp only [Straight, lateTicks, always_cons, always_nil, poseAfter]
    norm_num
  have hdig : ¬Always (fun t past =>
      (verdictAt alongAxis DigDetectorCfg.default past t).action = .kNone) lateTicks := by
    decide +kernel
  exact hdig (h lateTicks (by decide +kernel) hstraight)

end Dig
end Mowgli
