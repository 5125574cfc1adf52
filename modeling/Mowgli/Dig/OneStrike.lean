import Mathlib
import Mowgli.Dig.Windows

/-!
# OneStrike — the same dig again and again

`dig_escalation.hpp` and the four handlers of `hardware_bridge_node.cpp` that work on the flag:
a latch, a fused pose, the operator's clear and the rising edge of the charger. Exact arithmetic,
`std::hypot` is a parameter.

**Three distances**: `radius_m` makes latches one spot, twice of it releases, and
`dig_escalate_clear_distance_m` tells a plain clear from an acknowledgement.
-/

namespace Mowgli
namespace Dig

section

variable (K : Type)

structure DigLatch where
  x : K
  y : K
  t : K

abbrev DigLatchHistory := List (DigLatch K)

def kDigLatchHistoryMax : Nat := 32

structure DigEscalationCfg where
  radius_m : K
  window_s : K
  min_count : Int

/-- The spot that the operator acknowledged; `active` when there is one. -/
abbrev DigProbation := Option (K × K)

variable {K} [Field K] [LinearOrder K]

def DigEscalationEnabled (cfg : DigEscalationCfg K) : Prop :=
  0 < cfg.radius_m ∧ 0 < cfg.window_s ∧ 1 < cfg.min_count

instance (cfg : DigEscalationCfg K) : Decidable (DigEscalationEnabled cfg) :=
  inferInstanceAs (Decidable (_ ∧ _))

def DigPruneLatches (history : DigLatchHistory K) (now_t window_s : K) : DigLatchHistory K :=
  history.filter fun latch => now_t - latch.t ≤ window_s

/-- The oldest ones are in front. -/
def DigRecordLatch (history : DigLatchHistory K) (x y t window_s : K) : DigLatchHistory K :=
  let next := DigPruneLatches history t window_s
  let next :=
    if kDigLatchHistoryMax ≤ next.length then next.drop (next.length - kDigLatchHistoryMax + 1)
    else next
  next ++ [⟨x, y, t⟩]

def kDigEscalationClearFactor : K := 2.0

variable (hypot : K → K → K)

/-- This latch is one of them. -/
def DigNearbyLatchCount (history : DigLatchHistory K) (x y t radius_m window_s : K) : Int :=
  1 + history.countP fun latch =>
    ¬(t - latch.t < 0 ∨ window_s < t - latch.t) ∧ hypot (x - latch.x) (y - latch.y) ≤ radius_m

def DigEscalationClearedByDisplacement (anchor_x anchor_y x y radius_m : K) : Prop :=
  ¬radius_m ≤ 0 ∧ kDigEscalationClearFactor * radius_m < hypot (x - anchor_x) (y - anchor_y)

instance (anchor_x anchor_y x y radius_m : K) :
    Decidable (DigEscalationClearedByDisplacement hypot anchor_x anchor_y x y radius_m) :=
  inferInstanceAs (Decidable (_ ∧ _))

def ShouldEscalate (cfg : DigEscalationCfg K) (history : DigLatchHistory K) (x y t : K) : Prop :=
  ¬(cfg.radius_m ≤ 0 ∨ cfg.window_s ≤ 0 ∨ cfg.min_count ≤ 1) ∧
    cfg.min_count ≤ DigNearbyLatchCount hypot history x y t cfg.radius_m cfg.window_s

instance (cfg : DigEscalationCfg K) (history : DigLatchHistory K) (x y t : K) :
    Decidable (ShouldEscalate hypot cfg history x y t) :=
  inferInstanceAs (Decidable (_ ∧ _))

def CanClearDigEscalation (anchor_x anchor_y x y radius_m : K) : Prop :=
  radius_m ≤ 0 ∨ radius_m < hypot (x - anchor_x) (y - anchor_y)

instance (anchor_x anchor_y x y radius_m : K) :
    Decidable (CanClearDigEscalation hypot anchor_x anchor_y x y radius_m) :=
  inferInstanceAs (Decidable (_ ∨ _))

def DigProbationReEscalates (probation : DigProbation K) (x y radius_m : K) : Prop :=
  ∃ spot ∈ probation, 0 < radius_m ∧ hypot (x - spot.1) (y - spot.2) ≤ radius_m

def DigProbationLeft (probation : DigProbation K) (x y radius_m : K) : Prop :=
  ∃ spot ∈ probation, DigEscalationClearedByDisplacement hypot spot.1 spot.2 x y radius_m

instance (probation : DigProbation K) (x y radius_m : K) :
    Decidable (DigProbationReEscalates hypot probation x y radius_m) :=
  match probation with
  | none => isFalse (by simp [DigProbationReEscalates])
  | some spot =>
    decidable_of_iff (0 < radius_m ∧ hypot (x - spot.1) (y - spot.2) ≤ radius_m)
      (by simp [DigProbationReEscalates])

instance (probation : DigProbation K) (x y radius_m : K) :
    Decidable (DigProbationLeft hypot probation x y radius_m) :=
  match probation with
  | none => isFalse (by simp [DigProbationLeft])
  | some spot =>
    decidable_of_iff (DigEscalationClearedByDisplacement hypot spot.1 spot.2 x y radius_m)
      (by simp [DigProbationLeft])

/-! ## The bridge -/

variable (K)

structure Cfg extends DigEscalationCfg K where
  /-- The parameter `dig_escalate_clear_distance_m`, as declared. -/
  declared : K

structure Bridge where
  last_map_pose : K × K := (0, 0)
  dig_latch_history : DigLatchHistory K := []
  dig_escalated : Bool := false
  /-- `dig_escalation_x_` and `dig_escalation_y_`. -/
  dig_escalation : K × K := (0, 0)
  dig_probation : DigProbation K := none

inductive Event where
  /-- `note_dig_for_escalation` at this time. -/
  | latch (t : K)
  | on_filtered_map_odom (x y : K)
  | on_clear_dig_escalation
  /-- `is_charging_` rises. -/
  | charging

variable {K}

/-- `std::max` with the floor. -/
def Cfg.dig_escalate_clear_distance_m (cfg : Cfg K) : K :=
  if 0.30 < cfg.declared then cfg.declared else 0.30

variable (cfg : Cfg K)

def note_dig_for_escalation (s : Bridge K) (t : K) : Bridge K :=
  if ¬DigEscalationEnabled cfg.toDigEscalationCfg then s
  else
    let x := s.last_map_pose.1
    let y := s.last_map_pose.2
    let on_probation := DigProbationReEscalates hypot s.dig_probation x y cfg.radius_m
    let escalate :=
      on_probation ∨ ShouldEscalate hypot cfg.toDigEscalationCfg s.dig_latch_history x y t
    let recorded :=
      { s with dig_latch_history := DigRecordLatch s.dig_latch_history x y t cfg.window_s }
    if ¬escalate ∨ s.dig_escalated = true then recorded
    else { recorded with dig_escalated := true, dig_escalation := (x, y), dig_probation := none }

def on_filtered_map_odom (s : Bridge K) (x y : K) : Bridge K :=
  let s := { s with last_map_pose := (x, y) }
  let s :=
    if s.dig_escalated = true ∧ DigEscalationClearedByDisplacement hypot s.dig_escalation.1
        s.dig_escalation.2 x y cfg.radius_m then
      { s with dig_escalated := false, dig_latch_history := [] }
    else s
  if DigProbationLeft hypot s.dig_probation x y cfg.radius_m then { s with dig_probation := none }
  else s

def on_clear_dig_escalation (s : Bridge K) : Bridge K :=
  if s.dig_escalated = false then s
  else
    let moved_clear := CanClearDigEscalation hypot s.dig_escalation.1 s.dig_escalation.2
      s.last_map_pose.1 s.last_map_pose.2 cfg.dig_escalate_clear_distance_m
    { s with
      dig_escalated := false
      dig_latch_history := []
      dig_probation := if moved_clear then none else some s.dig_escalation }

def on_charging (s : Bridge K) : Bridge K :=
  { s with dig_escalated := false, dig_latch_history := [], dig_probation := none }

def step (s : Bridge K) : Event K → Bridge K
  | .latch t => note_dig_for_escalation hypot cfg s t
  | .on_filtered_map_odom x y => on_filtered_map_odom hypot cfg s x y
  | .on_clear_dig_escalation => on_clear_dig_escalation hypot cfg s
  | .charging => on_charging s

/-- After these events, the last one first. -/
def bridgeAfter : List (Event K) → Bridge K
  | [] => {}
  | event :: past => step hypot cfg (bridgeAfter past) event

end

/-!
## What raises the flag and what takes it down

The four handlers, by the log of what they did. The history is the latches since it was last
forgotten, as long as they can count (`history_recent`); the probation is a clear on the spot with
nothing since that ends it (`probation_iff`).

**Close to the spot is what the clear distance says**, not the radius: a clear between the two is a
plain one, and the next dig there is the first of `min_count` again.
-/

open Trace

variable {K : Type} [Field K] [LinearOrder K]

/-! ## The log, the newest entry first -/

structure Entry (K : Type) [Field K] where
  event : Event K
  before : Bridge K
  after : Bridge K

def log (hypot : K → K → K) (cfg : Cfg K) : List (Event K) → List (Entry K)
  | [] => []
  | event :: past =>
    { event
      before := bridgeAfter hypot cfg past
      after := bridgeAfter hypot cfg (event :: past) } :: log hypot cfg past

namespace Entry

variable (e : Entry K)

def Rises : Prop := e.before.dig_escalated = false ∧ e.after.dig_escalated = true

def Falls : Prop := e.before.dig_escalated = true ∧ e.after.dig_escalated = false

def isCharging : Bool :=
  match e.event with
  | .charging => true
  | _ => false

instance : Decidable e.Rises := inferInstanceAs (Decidable (_ ∧ _))
instance : Decidable e.Falls := inferInstanceAs (Decidable (_ ∧ _))

end Entry

/-- Where the flag rose. -/
def escalationPoint : List (Entry K) → K × K
  | [] => (0, 0)
  | e :: past => if e.Rises then e.before.last_map_pose else escalationPoint past

/-- The latches since the charger or the last release, the newest first. -/
def latchesSince : List (Entry K) → List (DigLatch K)
  | [] => []
  | e :: past =>
    if e.isCharging = true ∨ e.Falls then []
    else
      match e.event with
      | .latch t => ⟨e.before.last_map_pose.1, e.before.last_map_pose.2, t⟩ :: latchesSince past
      | _ => latchesSince past

def latchTimes : List (Event K) → List K
  | [] => []
  | .latch t :: past => t :: latchTimes past
  | _ :: past => latchTimes past

section Spots

variable (hypot : K → K → K) (cfg : Cfg K)

def distance (p q : K × K) : K := hypot (q.1 - p.1) (q.2 - p.2)

/-- How many latches since the last reset were here, not longer ago than the window. -/
def digsHere (pose : K × K) (t : K) (past : List (Entry K)) : Nat :=
  (latchesSince past).countP fun latch =>
    t - latch.t ≤ cfg.window_s ∧ distance hypot (latch.x, latch.y) pose ≤ cfg.radius_m

/-- A clear close to where the flag rose. -/
structure Acknowledges (spot : K × K) (e : Entry K) (past : List (Entry K)) : Prop where
  clear : e.event = .on_clear_dig_escalation
  raised : e.before.dig_escalated = true
  point : spot = escalationPoint past
  close : distance hypot spot e.before.last_map_pose ≤ cfg.dig_escalate_clear_distance_m

/-- Not at the charger, not far away, and the flag did not rise. -/
structure Stays (spot : K × K) (e : Entry K) : Prop where
  charger : e.event ≠ .charging
  pose : ∀ x y, e.event = .on_filtered_map_odom x y →
    ¬2.0 * cfg.radius_m < distance hypot spot (x, y)
  rise : ¬e.Rises

def Acknowledged (spot : K × K) : List (Entry K) → Prop :=
  Since (Stays hypot cfg spot) (Acknowledges hypot cfg spot)

/-- What decides about a latch. -/
def Escalates (s : Bridge K) (t : K) : Prop :=
  DigProbationReEscalates hypot s.dig_probation s.last_map_pose.1 s.last_map_pose.2 cfg.radius_m ∨
    ShouldEscalate hypot cfg.toDigEscalationCfg s.dig_latch_history s.last_map_pose.1
      s.last_map_pose.2 t

end Spots

variable {hypot : K → K → K} {cfg : Cfg K} {s : Bridge K} {past : List (Event K)}

/-! ## One step -/

section Odom

variable (x y : K)

@[simp] theorem odom_escalation :
    (on_filtered_map_odom hypot cfg s x y).dig_escalation = s.dig_escalation := by
  simp only [on_filtered_map_odom]
  split <;> split <;> rfl

@[simp] theorem odom_pose :
    (on_filtered_map_odom hypot cfg s x y).last_map_pose = (x, y) := by
  simp only [on_filtered_map_odom]
  split <;> split <;> rfl

theorem odom_probation :
    (on_filtered_map_odom hypot cfg s x y).dig_probation =
      if DigProbationLeft hypot s.dig_probation x y cfg.radius_m then none
      else s.dig_probation := by
  unfold on_filtered_map_odom
  by_cases hcleared : s.dig_escalated = true ∧ DigEscalationClearedByDisplacement hypot
      s.dig_escalation.1 s.dig_escalation.2 x y cfg.radius_m
  · simp only [if_pos hcleared]
    split <;> rfl
  · simp only [if_neg hcleared]
    split <;> rfl

/-- Far away the flag and the history go together. -/
theorem odom_release (hypot : K → K → K) (cfg : Cfg K) (s : Bridge K) :
    s.dig_escalated = true ∧ DigEscalationClearedByDisplacement hypot s.dig_escalation.1
        s.dig_escalation.2 x y cfg.radius_m ∧
        (on_filtered_map_odom hypot cfg s x y).dig_escalated = false ∧
        (on_filtered_map_odom hypot cfg s x y).dig_latch_history = [] ∨
      ¬(s.dig_escalated = true ∧ DigEscalationClearedByDisplacement hypot s.dig_escalation.1
        s.dig_escalation.2 x y cfg.radius_m) ∧
        (on_filtered_map_odom hypot cfg s x y).dig_escalated = s.dig_escalated ∧
        (on_filtered_map_odom hypot cfg s x y).dig_latch_history = s.dig_latch_history := by
  unfold on_filtered_map_odom
  by_cases hcleared : s.dig_escalated = true ∧ DigEscalationClearedByDisplacement hypot
      s.dig_escalation.1 s.dig_escalation.2 x y cfg.radius_m
  · refine .inl ⟨hcleared.1, hcleared.2, ?_, ?_⟩
    · simp only [if_pos hcleared]
      split <;> rfl
    · simp only [if_pos hcleared]
      split <;> rfl
  · refine .inr ⟨hcleared, ?_, ?_⟩
    · simp only [if_neg hcleared]
      split <;> rfl
    · simp only [if_neg hcleared]
      split <;> rfl

end Odom

theorem clear_of_down (h : s.dig_escalated = false) :
    on_clear_dig_escalation hypot cfg s = s :=
  if_pos h

theorem clear_of_up (h : s.dig_escalated = true) :
    on_clear_dig_escalation hypot cfg s =
      { s with
        dig_escalated := false
        dig_latch_history := []
        dig_probation :=
          if CanClearDigEscalation hypot s.dig_escalation.1 s.dig_escalation.2 s.last_map_pose.1
            s.last_map_pose.2 cfg.dig_escalate_clear_distance_m then none
          else some s.dig_escalation } :=
  if_neg (by simp [h])

theorem clear_distance_pos [IsStrictOrderedRing K] (cfg : Cfg K) :
    0 < cfg.dig_escalate_clear_distance_m := by
  have hfloor : (0 : K) < 0.30 := by norm_num
  unfold Cfg.dig_escalate_clear_distance_m
  split
  · rename_i h
    exact hfloor.trans h
  · exact hfloor

/-! ## The history -/

variable {t : K}

theorem DigPruneLatches_length (history : DigLatchHistory K) (t window_s : K) :
    (DigPruneLatches history t window_s).length =
      (history.map DigLatch.t).countP fun t' => t - t' ≤ window_s := by
  rw [DigPruneLatches, ← List.countP_eq_length_filter, List.countP_map]
  rfl

/-- What can still count has survived each pruning. -/
theorem DigPruneLatches_prune [IsStrictOrderedRing K] (history : DigLatchHistory K)
    {t' window_s : K} (h : t' ≤ t) :
    DigPruneLatches (DigPruneLatches history t' window_s) t window_s =
      DigPruneLatches history t window_s := by
  rw [DigPruneLatches, DigPruneLatches, List.filter_filter, DigPruneLatches]
  refine List.filter_congr fun latch _ => ?_
  rw [Bool.and_eq_left_iff_imp]
  simp only [decide_eq_true_eq]
  intro hrecent
  linarith

theorem latchesSince_sublist (hypot : K → K → K) (cfg : Cfg K) (past : List (Event K)) :
    ((latchesSince (log hypot cfg past)).map DigLatch.t).Sublist (latchTimes past) := by
  induction past with
  | nil => exact List.Sublist.refl _
  | cons event past ih =>
    rw [log, latchesSince]
    split
    · exact List.nil_sublist _
    · cases event with
      | latch t => exact ih.cons_cons t
      | on_filtered_map_odom x y => exact ih
      | on_clear_dig_escalation => exact ih
      | charging => exact ih

/-- At most 32 latches in any window. -/
def Rare (window_s : K) : List K → Prop :=
  Always fun t past => (t :: past).countP (fun t' => t - t' ≤ window_s) ≤ kDigLatchHistoryMax

theorem DigRecordLatch_of_rare {history : DigLatchHistory K} {window_s : K} (x y : K)
    (h : (DigPruneLatches history t window_s).length < kDigLatchHistoryMax) :
    DigRecordLatch history x y t window_s = DigPruneLatches history t window_s ++ [⟨x, y, t⟩] := by
  simp only [DigRecordLatch]
  rw [if_neg (not_le.2 h)]

theorem DigNearbyLatchCount_prune (history : DigLatchHistory K) (x y t radius_m window_s : K) :
    DigNearbyLatchCount hypot history x y t radius_m window_s =
      1 + (DigPruneLatches history t window_s).countP fun latch =>
        ¬t - latch.t < 0 ∧ hypot (x - latch.x) (y - latch.y) ≤ radius_m := by
  rw [DigNearbyLatchCount, DigPruneLatches, List.countP_filter]
  congr 2
  refine List.countP_congr fun latch _ => ?_
  simp only [decide_eq_true_eq, Bool.and_eq_true, not_or, not_lt]
  constructor
  · rintro ⟨⟨hpast, hrecent⟩, hnear⟩
    exact ⟨⟨hpast, hnear⟩, hrecent⟩
  · rintro ⟨⟨hpast, hnear⟩, hrecent⟩
    exact ⟨⟨hpast, hrecent⟩, hnear⟩

section Steps

variable (henabled : DigEscalationEnabled cfg.toDigEscalationCfg)

include henabled

theorem note_of_rise (hdown : s.dig_escalated = false) (h : Escalates hypot cfg s t) :
    note_dig_for_escalation hypot cfg s t =
      { s with
        dig_latch_history := DigRecordLatch s.dig_latch_history s.last_map_pose.1
          s.last_map_pose.2 t cfg.window_s
        dig_escalated := true
        dig_escalation := s.last_map_pose
        dig_probation := none } := by
  unfold note_dig_for_escalation
  rw [if_neg (not_not.2 henabled), if_neg]
  rintro (hnot | hup)
  · exact hnot h
  · rw [hdown] at hup
    exact absurd hup (by simp)

theorem note_of_not (h : ¬(s.dig_escalated = false ∧ Escalates hypot cfg s t)) :
    note_dig_for_escalation hypot cfg s t =
      { s with
        dig_latch_history := DigRecordLatch s.dig_latch_history s.last_map_pose.1
          s.last_map_pose.2 t cfg.window_s } := by
  unfold note_dig_for_escalation
  rw [if_neg (not_not.2 henabled), if_pos]
  by_cases hescalates : Escalates hypot cfg s t
  · exact .inr (by simpa using fun hdown => h ⟨hdown, hescalates⟩)
  · exact .inl hescalates

/-! ## The flag -/

theorem rises_iff (event : Event K) :
    s.dig_escalated = false ∧ (step hypot cfg s event).dig_escalated = true ↔
      ∃ t, event = .latch t ∧ s.dig_escalated = false ∧ Escalates hypot cfg s t := by
  constructor
  · rintro ⟨hdown, hup⟩
    cases event with
    | latch t =>
      by_cases h : s.dig_escalated = false ∧ Escalates hypot cfg s t
      · exact ⟨t, rfl, h⟩
      · rw [step, note_of_not henabled h] at hup
        exact absurd hup (by simp [hdown])
    | on_filtered_map_odom x y =>
      rw [step] at hup
      rcases odom_release x y hypot cfg s with ⟨_, _, hfree, _⟩ | ⟨_, hsame, _⟩
      · exact absurd hup (by simp [hfree])
      · exact absurd hup (by simp [hsame, hdown])
    | on_clear_dig_escalation =>
      rw [step, clear_of_down hdown] at hup
      exact absurd hup (by simp [hdown])
    | charging => exact absurd hup (by simp [step, on_charging])
  · rintro ⟨t, rfl, hdown, h⟩
    rw [step, note_of_rise henabled hdown h]
    exact ⟨hdown, rfl⟩

theorem falls_iff (event : Event K) :
    s.dig_escalated = true ∧ (step hypot cfg s event).dig_escalated = false ↔
      s.dig_escalated = true ∧
        (event = .charging ∨ event = .on_clear_dig_escalation ∨
          ∃ x y, event = .on_filtered_map_odom x y ∧ DigEscalationClearedByDisplacement hypot
            s.dig_escalation.1 s.dig_escalation.2 x y cfg.radius_m) := by
  refine and_congr_right fun hup => ?_
  cases event with
  | latch t =>
    rw [step, note_of_not henabled fun h => by simp [hup] at h]
    simp [hup]
  | on_filtered_map_odom x y =>
    rcases odom_release x y hypot cfg s with ⟨_, hfar, hfree, _⟩ | ⟨hnot, hsame, _⟩
    · simp [step, hfree, hfar]
    · have hnear : ¬DigEscalationClearedByDisplacement hypot s.dig_escalation.1 s.dig_escalation.2
          x y cfg.radius_m := fun h => hnot ⟨hup, h⟩
      simp [step, hsame, hup, hnear]
  | on_clear_dig_escalation =>
    rw [step, clear_of_up hup]
    simp
  | charging => simp [step, on_charging]

theorem step_escalation (event : Event K) :
    (step hypot cfg s event).dig_escalation =
      if s.dig_escalated = false ∧ (step hypot cfg s event).dig_escalated = true
        then s.last_map_pose else s.dig_escalation := by
  by_cases hrise : s.dig_escalated = false ∧ (step hypot cfg s event).dig_escalated = true
  · obtain ⟨t, rfl, hdown, h⟩ := (rises_iff henabled event).1 hrise
    rw [if_pos hrise, step, note_of_rise henabled hdown h]
  · rw [if_neg hrise]
    cases event with
    | latch t =>
      have hnot : ¬(s.dig_escalated = false ∧ Escalates hypot cfg s t) := fun h =>
        hrise ((rises_iff henabled _).2 ⟨t, rfl, h⟩)
      rw [step, note_of_not henabled hnot]
    | on_filtered_map_odom x y => exact odom_escalation x y
    | on_clear_dig_escalation =>
      cases hup : s.dig_escalated with
      | false => rw [step, clear_of_down hup]
      | true => rw [step, clear_of_up hup]
    | charging => rfl

theorem escalation_eq (past : List (Event K)) :
    (bridgeAfter hypot cfg past).dig_escalation = escalationPoint (log hypot cfg past) := by
  induction past with
  | nil => rfl
  | cons event past ih =>
    rw [bridgeAfter, step_escalation henabled, ih]
    rfl

/-! ## The probation -/

theorem down_of_probation {spot : K × K}
    (h : (bridgeAfter hypot cfg past).dig_probation = some spot) :
    (bridgeAfter hypot cfg past).dig_escalated = false := by
  induction past with
  | nil => rfl
  | cons event past ih =>
    rw [bridgeAfter] at h ⊢
    generalize bridgeAfter hypot cfg past = s at h ih ⊢
    cases event with
    | latch t =>
      by_cases hrise : s.dig_escalated = false ∧ Escalates hypot cfg s t
      · rw [step, note_of_rise henabled hrise.1 hrise.2] at h
        exact absurd h (by simp)
      · rw [step, note_of_not henabled hrise] at h ⊢
        exact ih h
    | on_filtered_map_odom x y =>
      rw [step, odom_probation] at h
      split at h
      · exact absurd h (by simp)
      · rw [step]
        rcases odom_release x y hypot cfg s with ⟨_, _, hfree, _⟩ | ⟨_, hsame, _⟩
        · exact hfree
        · rw [hsame, ih h]
    | on_clear_dig_escalation =>
      cases hup : s.dig_escalated with
      | false => rw [step, clear_of_down hup, hup]
      | true => rw [step, clear_of_up hup]
    | charging => rfl

/-- Only a latch can make the flag rise. -/
theorem not_rises (event : Event K) (h : ∀ t, event ≠ .latch t) :
    ¬(s.dig_escalated = false ∧ (step hypot cfg s event).dig_escalated = true) := fun hrise => by
  obtain ⟨t, hevent, _⟩ := (rises_iff henabled event).1 hrise
  exact h t hevent

theorem far_iff (p : K × K) (x y : K) :
    DigEscalationClearedByDisplacement hypot p.1 p.2 x y cfg.radius_m ↔
      2.0 * cfg.radius_m < distance hypot p (x, y) :=
  and_iff_right (not_le.2 henabled.1)

theorem probation_iff [IsStrictOrderedRing K] (past : List (Event K)) (spot : K × K) :
    (bridgeAfter hypot cfg past).dig_probation = some spot ↔
      Acknowledged hypot cfg spot (log hypot cfg past) := by
  induction past with
  | nil => exact iff_of_false (by simp [bridgeAfter]) id
  | cons event past ih =>
    have hpoint : (bridgeAfter hypot cfg past).dig_escalation = _ := escalation_eq henabled past
    have hdown (h : (bridgeAfter hypot cfg past).dig_probation = some spot) :=
      down_of_probation henabled h
    rw [log, Acknowledged, since_cons, ← Acknowledged, ← ih, bridgeAfter]
    generalize bridgeAfter hypot cfg past = s at hpoint hdown ⊢
    cases event with
    | latch t =>
      by_cases hrise : s.dig_escalated = false ∧ Escalates hypot cfg s t
      · rw [step, note_of_rise henabled hrise.1 hrise.2]
        refine iff_of_false (by simp) ?_
        rintro (h | ⟨h, _⟩)
        · exact absurd h.clear (by simp)
        · exact h.rise ⟨hrise.1, rfl⟩
      · rw [step, note_of_not henabled hrise]
        constructor
        · intro h
          refine .inr ⟨⟨by simp, by simp, fun hup => ?_⟩, h⟩
          exact absurd (hup.1.symm.trans hup.2) (by simp)
        · rintro (h | ⟨_, h⟩)
          · exact absurd h.clear (by simp)
          · exact h
    | on_filtered_map_odom x y =>
      rw [step, odom_probation]
      constructor
      · intro h
        split at h
        · exact absurd h (by simp)
        · rename_i hleft
          refine .inr ⟨⟨by simp, ?_, not_rises henabled (.on_filtered_map_odom x y) (by simp)⟩, h⟩
          rintro x' y' hevent hfar
          obtain ⟨rfl, rfl⟩ : x = x' ∧ y = y' := by simpa using hevent
          exact hleft ⟨spot, h, (far_iff henabled spot x y).2 hfar⟩
      · rintro (h | ⟨h, hspot⟩)
        · exact absurd h.clear (by simp)
        · rw [if_neg, hspot]
          rintro ⟨spot', hspot', hfar⟩
          obtain rfl : spot = spot' := by
            rw [hspot] at hspot'
            simpa using hspot'
          exact h.pose x y rfl ((far_iff henabled spot x y).1 hfar)
    | on_clear_dig_escalation =>
      cases hup : s.dig_escalated with
      | false =>
        rw [step, clear_of_down hup]
        constructor
        · intro h
          exact .inr ⟨⟨by simp, by simp, fun hrise => absurd hrise.2 (by simp [hup])⟩, h⟩
        · rintro (h | ⟨_, h⟩)
          · exact absurd h.raised (by simp [hup])
          · exact h
      | true =>
        have hclose : ¬CanClearDigEscalation hypot s.dig_escalation.1 s.dig_escalation.2
            s.last_map_pose.1 s.last_map_pose.2 cfg.dig_escalate_clear_distance_m ↔
            distance hypot s.dig_escalation s.last_map_pose ≤
              cfg.dig_escalate_clear_distance_m := by
          unfold CanClearDigEscalation
          rw [or_iff_right (not_le.2 (clear_distance_pos cfg)), not_lt]
          rfl
        rw [step, clear_of_up hup]
        constructor
        · intro h
          dsimp only at h
          split at h
          · exact absurd h (by simp)
          · rename_i hcan
            obtain rfl : s.dig_escalation = spot := by simpa using h
            exact .inl ⟨rfl, hup, hpoint, hclose.1 hcan⟩
        · rintro (h | ⟨_, h⟩)
          · obtain rfl : spot = s.dig_escalation := h.point.trans hpoint.symm
            exact if_neg (hclose.2 h.close)
          · exact absurd (hdown h) (by simp [hup])
    | charging =>
      refine iff_of_false (by simp [step, on_charging]) ?_
      rintro (h | ⟨h, _⟩)
      · exact absurd h.clear (by simp)
      · exact h.charger rfl

theorem note_history (t : K) :
    (note_dig_for_escalation hypot cfg s t).dig_latch_history =
      DigRecordLatch s.dig_latch_history s.last_map_pose.1 s.last_map_pose.2 t cfg.window_s := by
  by_cases hrise : s.dig_escalated = false ∧ Escalates hypot cfg s t
  · rw [note_of_rise henabled hrise.1 hrise.2]
  · rw [note_of_not henabled hrise]

theorem latchesSince_latch (past : List (Event K)) (t : K) :
    latchesSince (log hypot cfg (.latch t :: past)) =
      ⟨(bridgeAfter hypot cfg past).last_map_pose.1, (bridgeAfter hypot cfg past).last_map_pose.2,
        t⟩ :: latchesSince (log hypot cfg past) := by
  rw [log, latchesSince, if_neg]
  rintro (hcharging | hfalls)
  · exact absurd hcharging (by simp [Entry.isCharging])
  · have h := ((falls_iff henabled _).1 hfalls).2
    simp at h

/-- The history holds what was latched since the last reset, apart from what is too old to count
    again. -/
theorem history_recent [IsStrictOrderedRing K]
    (hsorted : (latchTimes past).Pairwise (· ≥ ·)) (hrare : Rare cfg.window_s (latchTimes past))
    (ht : ∀ t' ∈ latchTimes past, t' ≤ t) :
    DigPruneLatches (bridgeAfter hypot cfg past).dig_latch_history t cfg.window_s =
      (DigPruneLatches (latchesSince (log hypot cfg past)) t cfg.window_s).reverse := by
  induction past generalizing t with
  | nil => rfl
  | cons event past ih =>
    cases event with
    | latch t' =>
      obtain ⟨hle, hsorted⟩ := List.pairwise_cons.1 hsorted
      obtain ⟨hcount, hrare⟩ := hrare
      have hthen := ih hsorted hrare hle
      have hroom : (DigPruneLatches (bridgeAfter hypot cfg past).dig_latch_history t'
          cfg.window_s).length < kDigLatchHistoryMax := by
        rw [hthen, List.length_reverse, DigPruneLatches_length]
        have hsub := List.Sublist.countP_le (p := fun t'' => decide (t' - t'' ≤ cfg.window_s))
          (latchesSince_sublist hypot cfg past)
        rw [List.countP_cons_of_pos (by simpa using henabled.2.1.le)] at hcount
        omega
      have hlater : t' ≤ t := ht t' (by simp [latchTimes])
      have hnow := ih hsorted hrare fun t'' h => ht t'' (by simp [latchTimes, h])
      rw [bridgeAfter, step, note_history henabled, DigRecordLatch_of_rare _ _ hroom,
        latchesSince_latch henabled]
      rw [← DigPruneLatches_prune _ hlater] at hnow
      simp only [DigPruneLatches, List.filter_append, List.filter_cons, List.filter_nil] at hnow ⊢
      rw [hnow]
      split
      · rw [List.reverse_cons]
      · rw [List.append_nil]
    | on_filtered_map_odom x y =>
      have hnow := ih hsorted hrare ht
      rw [bridgeAfter, log, latchesSince]
      rcases odom_release x y hypot cfg (bridgeAfter hypot cfg past) with
        ⟨hup, _, hfree, hempty⟩ | ⟨_, hsame, hkept⟩
      · rw [if_pos (.inr ⟨hup, hfree⟩), step, hempty]
        rfl
      · rw [if_neg, step, hkept]
        · exact hnow
        · rintro (hcharging | ⟨hup, hfree⟩)
          · exact absurd hcharging (by simp [Entry.isCharging])
          · exact absurd (hup.symm.trans (hsame.symm.trans hfree)) (by simp)
    | on_clear_dig_escalation =>
      have hnow := ih hsorted hrare ht
      rw [log, latchesSince, bridgeAfter]
      generalize bridgeAfter hypot cfg past = s at hnow ⊢
      cases hup : s.dig_escalated with
      | false =>
        rw [step, clear_of_down hup, if_neg]
        · exact hnow
        · rintro (hcharging | hfalls)
          · exact absurd hcharging (by simp [Entry.isCharging])
          · exact absurd (hup.symm.trans hfalls.1) (by simp)
      | true =>
        rw [if_pos (.inr ((falls_iff henabled _).2 ⟨hup, .inr (.inl rfl)⟩)), step,
          clear_of_up hup]
        rfl
    | charging =>
      rw [log, latchesSince, if_pos (.inl rfl)]
      rfl

/-! ## What decides about a latch -/

theorem nearby_eq [IsStrictOrderedRing K]
    (hsorted : (latchTimes past).Pairwise (· ≥ ·))
    (hrare : Rare cfg.window_s (latchTimes past)) (ht : ∀ t' ∈ latchTimes past, t' ≤ t)
    (pose : K × K) :
    DigNearbyLatchCount hypot (bridgeAfter hypot cfg past).dig_latch_history pose.1 pose.2 t
        cfg.radius_m cfg.window_s = 1 + digsHere hypot cfg pose t (log hypot cfg past) := by
  rw [DigNearbyLatchCount_prune, history_recent henabled hsorted hrare ht, List.countP_reverse,
    DigPruneLatches, List.countP_filter, digsHere]
  congr 2
  refine List.countP_congr fun latch hlatch => ?_
  have hpast : latch.t ≤ t :=
    ht _ ((latchesSince_sublist hypot cfg past).subset (List.mem_map_of_mem hlatch))
  simp only [decide_eq_true_eq, Bool.and_eq_true, not_lt, sub_nonneg]
  constructor
  · rintro ⟨⟨_, hnear⟩, hrecent⟩
    exact ⟨hrecent, hnear⟩
  · rintro ⟨hrecent, hnear⟩
    exact ⟨⟨hpast, hnear⟩, hrecent⟩

theorem escalates_iff [IsStrictOrderedRing K]
    (hsorted : (latchTimes past).Pairwise (· ≥ ·)) (hrare : Rare cfg.window_s (latchTimes past))
    (ht : ∀ t' ∈ latchTimes past, t' ≤ t) :
    Escalates hypot cfg (bridgeAfter hypot cfg past) t ↔
      (∃ spot, Acknowledged hypot cfg spot (log hypot cfg past) ∧
          distance hypot spot (bridgeAfter hypot cfg past).last_map_pose ≤ cfg.radius_m) ∨
        cfg.min_count ≤ 1 + digsHere hypot cfg (bridgeAfter hypot cfg past).last_map_pose t
          (log hypot cfg past) := by
  refine or_congr ?_ ?_
  · simp only [DigProbationReEscalates, Option.mem_def, probation_iff henabled, henabled.1,
      true_and]
    rfl
  · rw [ShouldEscalate, nearby_eq henabled hsorted hrare ht]
    refine and_iff_right ?_
    rintro (h | h | h)
    · exact absurd henabled.1 (not_lt.2 h)
    · exact absurd henabled.2.1 (not_lt.2 h)
    · exact absurd henabled.2.2 (not_lt.2 h)

end Steps

/-! ## Whole runs -/

/-- The flag by its log. -/
structure Follows (hypot : K → K → K) (cfg : Cfg K) (e : Entry K) (past : List (Entry K)) :
    Prop where
  rises : e.Rises ↔ e.before.dig_escalated = false ∧ ∃ t, e.event = .latch t ∧
    ((∃ spot, Acknowledged hypot cfg spot past ∧
        distance hypot spot e.before.last_map_pose ≤ cfg.radius_m) ∨
      cfg.min_count ≤ 1 + digsHere hypot cfg e.before.last_map_pose t past)
  falls : e.Falls ↔ e.before.dig_escalated = true ∧
    (e.event = .charging ∨ e.event = .on_clear_dig_escalation ∨
      ∃ x y, e.event = .on_filtered_map_odom x y ∧
        2.0 * cfg.radius_m < distance hypot (escalationPoint past) (x, y))
  /-- One more dig at an acknowledged spot is enough. -/
  strike : ∀ spot t, e.event = .latch t → Acknowledged hypot cfg spot past →
    distance hypot spot e.before.last_map_pose ≤ cfg.radius_m → e.Rises

theorem escalation_follows [IsStrictOrderedRing K] (hypot : K → K → K) (cfg : Cfg K)
    (henabled : DigEscalationEnabled cfg.toDigEscalationCfg) (events : List (Event K))
    (hsorted : (latchTimes events).Pairwise (· ≥ ·))
    (hrare : Rare cfg.window_s (latchTimes events)) :
    Always (Follows hypot cfg) (log hypot cfg events) := by
  induction events with
  | nil => trivial
  | cons event past ih =>
    have hpast : (latchTimes past).Pairwise (· ≥ ·) ∧ Rare cfg.window_s (latchTimes past) := by
      cases event with
      | latch t => exact ⟨(List.pairwise_cons.1 hsorted).2, hrare.2⟩
      | on_filtered_map_odom x y => exact ⟨hsorted, hrare⟩
      | on_clear_dig_escalation => exact ⟨hsorted, hrare⟩
      | charging => exact ⟨hsorted, hrare⟩
    have hescalates : ∀ t, event = .latch t → (Escalates hypot cfg (bridgeAfter hypot cfg past) t ↔
        (∃ spot, Acknowledged hypot cfg spot (log hypot cfg past) ∧
            distance hypot spot (bridgeAfter hypot cfg past).last_map_pose ≤ cfg.radius_m) ∨
          cfg.min_count ≤ 1 + digsHere hypot cfg (bridgeAfter hypot cfg past).last_map_pose t
            (log hypot cfg past)) := by
      rintro t rfl
      exact escalates_iff henabled hpast.1 hpast.2 (List.pairwise_cons.1 hsorted).1
    refine ⟨⟨(rises_iff henabled event).trans ?_, (falls_iff henabled event).trans ?_, ?_⟩,
      ih hpast.1 hpast.2⟩
    · constructor
      · rintro ⟨t, hevent, hdown, h⟩
        exact ⟨hdown, t, hevent, (hescalates t hevent).1 h⟩
      · rintro ⟨hdown, t, hevent, h⟩
        exact ⟨t, hevent, hdown, (hescalates t hevent).2 h⟩
    · rw [escalation_eq henabled]
      simp only [far_iff henabled]
    · intro spot t hevent hack hnear
      have hdown := down_of_probation henabled
        ((probation_iff henabled past spot).2 hack)
      exact (rises_iff henabled event).2
        ⟨t, hevent, hdown, (hescalates t hevent).2 (.inl ⟨spot, hack, hnear⟩)⟩

/-- A radius of one metre and a clear distance of half a metre. -/
def site : Cfg ℚ where
  radius_m := 1
  window_s := 60
  min_count := 3
  declared := 1 / 2

/-- Three latches on one spot. -/
theorem escalation_follows_cluster :
    Always (Follows alongAxis site) (log alongAxis site [.latch 20, .latch 10, .latch 0]) :=
  escalation_follows _ _ (by decide +kernel) _ (by decide +kernel) (by unfold Rare; decide +kernel)

/-- A clear between the two distances is a plain one. -/
theorem plain_clear_on_the_spot :
    ¬∀ events : List (Event ℚ), (latchTimes events).Pairwise (· ≥ ·) →
      Rare site.window_s (latchTimes events) →
      Always (fun e past => ∀ spot t, e.event = .latch t →
        Since (fun e => e.event ≠ .charging ∧ (∀ t, e.event ≠ .latch t) ∧
            ∀ x y, e.event = .on_filtered_map_odom x y →
              ¬2.0 * site.radius_m < distance alongAxis spot (x, y))
          (fun e past => e.event = .on_clear_dig_escalation ∧ e.before.dig_escalated = true ∧
            spot = escalationPoint past ∧
            distance alongAxis spot e.before.last_map_pose ≤ site.radius_m) past →
        distance alongAxis spot e.before.last_map_pose ≤ site.radius_m → e.Rises)
        (log alongAxis site events) := by
  intro h
  have hnot := (h [.latch 30, .on_clear_dig_escalation, .on_filtered_map_odom (3 / 4) 0,
    .latch 20, .latch 10, .latch 0] (by decide +kernel) (by unfold Rare; decide +kernel)).1
    (0, 0) 30 rfl (.inl ⟨rfl, by decide +kernel, by decide +kernel, by decide +kernel⟩)
    (by decide +kernel)
  exact absurd hnot (by decide +kernel)

end Dig
end Mowgli
