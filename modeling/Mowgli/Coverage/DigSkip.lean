import Mathlib.Algebra.BigOperators.Intervals
import Mathlib.Algebra.Field.Rat
import Mathlib.Algebra.Order.Ring.Rat

/-!
# Dig skip — the drivable runs of a coverage unit

`insideDigZone` and `nextDrivableRun` of `dig_skip.hpp`, over exact numbers. The poses near a dig
are skipped, and so is what lies between two zones and is not worth a transit.

A scan counts the poses it may still look at, which is what the bound of each loop says.
-/

namespace Mowgli
namespace Coverage

open Finset (Ico)

variable {K : Type} [Field K] [LinearOrder K]

structure Position (K : Type) where
  x : K
  y : K

def insideDigZone (x y : K) (digs : List (Position K)) (radiusM : K) : Bool :=
  if radiusM ≤ 0 then false
  else
    digs.any fun d =>
      decide ((d.x - x) * (d.x - x) + (d.y - y) * (d.y - y) ≤ radiusM * radiusM)

/-- A half-open range of poses. -/
structure DrivableRun where
  start : Nat
  stop : Nat
deriving DecidableEq

def DrivableRun.empty (r : DrivableRun) : Bool := decide (r.stop ≤ r.start)

/-! ## The scans -/

section Scans

variable (inside : Nat → Bool)

/-- `while (i < n && inside(i)) ++i`. -/
def skipInside (i : Nat) : Nat → Nat
  | 0 => i
  | left + 1 => if inside i then skipInside (i + 1) left else i

variable (step : Nat → K)

/-- `while (i < n && !inside(i))`, with the length of the steps that lead to each pose. -/
def takeOutside (i : Nat) (length : K) : Nat → Nat × K
  | 0 => (i, length)
  | left + 1 =>
    if inside i then (i, length) else takeOutside (i + 1) (length + step i) left

/-- The outer loop, with at most so many rounds. -/
def scanRuns (n : Nat) (minRunLengthM : K) (i : Nat) : Nat → DrivableRun
  | 0 => ⟨n, n⟩
  | rounds + 1 =>
    let start := skipInside inside i (n - i)
    if n ≤ start then ⟨n, n⟩
    else
      let block := takeOutside inside step (start + 1) 0 (n - (start + 1))
      if 2 ≤ block.1 - start ∧ minRunLengthM ≤ block.2 then ⟨start, block.1⟩
      else scanRuns n minRunLengthM block.1 rounds

end Scans

section Runs

variable (hypot : K → K → K) (poses : List (Position K)) (digs : List (Position K))
  (radiusM minRunLengthM : K)

/-- The pose at an index inside the list. -/
def poseAt (i : Nat) : Position K := poses.getD i ⟨0, 0⟩

def insideAt (i : Nat) : Bool :=
  insideDigZone (poseAt poses i).x (poseAt poses i).y digs radiusM

/-- How far a pose is from the one before. -/
def stepLength (i : Nat) : K :=
  hypot ((poseAt poses i).x - (poseAt poses (i - 1)).x)
    ((poseAt poses i).y - (poseAt poses (i - 1)).y)

def nextDrivableRun (start : Nat) : DrivableRun :=
  let n := poses.length
  if n ≤ start then ⟨n, n⟩
  else if digs.isEmpty ∨ radiusM ≤ 0 then ⟨start, n⟩
  else
    scanRuns (insideAt poses digs radiusM) (stepLength hypot poses) n minRunLengthM start
      (n - start)

end Runs

/-! ## Blocks -/

/-- A maximal block of poses outside the zones, of those from an index on. -/
structure Block (inside : Nat → Bool) (n first start stop : Nat) : Prop where
  from_ : first ≤ start
  nonempty : start < stop
  within : stop ≤ n
  outside : ∀ i, start ≤ i → i < stop → inside i = false
  left : start = first ∨ inside (start - 1) = true
  right : stop = n ∨ inside stop = true

/-- A block that is worth a transit. -/
def Worth (step : Nat → K) (minRunLengthM : K) (start stop : Nat) : Prop :=
  2 ≤ stop - start ∧ minRunLengthM ≤ ∑ i ∈ Ico (start + 1) stop, step i

section Specs

variable {inside : Nat → Bool} {step : Nat → K} {n : Nat} {minRunLengthM : K}

theorem skipInside_spec (inside : Nat → Bool) (i left : Nat) :
    i ≤ skipInside inside i left ∧ skipInside inside i left ≤ i + left ∧
      (∀ j, i ≤ j → j < skipInside inside i left → inside j = true) ∧
      (skipInside inside i left < i + left → inside (skipInside inside i left) = false) := by
  induction left generalizing i with
  | zero => exact ⟨Nat.le_refl i, Nat.le_refl i, fun j h h' => by unfold skipInside at h'; omega,
      fun h => absurd h (Nat.lt_irrefl i)⟩
  | succ left ih =>
    unfold skipInside
    split
    · rename_i hi
      obtain ⟨hle, hbound, hall, hend⟩ := ih (i + 1)
      refine ⟨by omega, by omega, ?_, fun h => hend (by omega)⟩
      intro j hj hlt
      by_cases heq : j = i
      · rw [heq]
        exact hi
      · exact hall j (by omega) hlt
    · rename_i hi
      refine ⟨Nat.le_refl i, Nat.le_add_right i _, fun j h h' => by omega, fun _ => ?_⟩
      exact Bool.eq_false_iff.2 hi

omit [LinearOrder K] in
theorem takeOutside_spec (inside : Nat → Bool) (step : Nat → K) (i left : Nat) (length : K) :
    let r := takeOutside inside step i length left
    i ≤ r.1 ∧ r.1 ≤ i + left ∧ (∀ j, i ≤ j → j < r.1 → inside j = false) ∧
      (r.1 < i + left → inside r.1 = true) ∧ r.2 = length + ∑ j ∈ Ico i r.1, step j := by
  induction left generalizing i length with
  | zero =>
    refine ⟨Nat.le_refl i, Nat.le_refl i, ?_, fun h => absurd h (Nat.lt_irrefl i), ?_⟩
    · intro j hj hlt
      exact absurd hlt (Nat.not_lt.2 hj)
    · show length = length + ∑ j ∈ Ico i i, step j
      rw [Finset.Ico_self, Finset.sum_empty, add_zero]
  | succ left ih =>
    unfold takeOutside
    split
    · rename_i hi
      refine ⟨Nat.le_refl i, Nat.le_add_right i _, ?_, fun _ => hi, ?_⟩
      · intro j hj hlt
        exact absurd hlt (Nat.not_lt.2 hj)
      · show length = length + ∑ j ∈ Ico i i, step j
        rw [Finset.Ico_self, Finset.sum_empty, add_zero]
    · rename_i hi
      obtain ⟨hle, hbound, hall, hend, hsum⟩ := ih (i + 1) (length + step i)
      refine ⟨by omega, by omega, ?_, fun h => hend (by omega), ?_⟩
      · intro j hj hlt
        by_cases heq : j = i
        · rw [heq]
          exact Bool.eq_false_iff.2 hi
        · exact hall j (by omega) hlt
      · rw [hsum, Finset.sum_eq_sum_Ico_succ_bot (Nat.lt_of_succ_le hle), add_assoc]

/-- Where a scan goes on: at its first index, in a zone, or past the end. -/
def Resting (inside : Nat → Bool) (n first i : Nat) : Prop :=
  first ≤ i ∧ (i = first ∨ inside i = true ∨ n ≤ i)

/-- A pose that no run is to hold. -/
def Skipped (inside : Nat → Bool) (step : Nat → K) (n : Nat) (minRunLengthM : K) (first j : Nat) :
    Prop :=
  inside j = true ∨ ∃ start stop, Block inside n first start stop ∧ start ≤ j ∧ j < stop ∧
    ¬Worth step minRunLengthM start stop

/-- The first block from an index on that is worth it, and what lies before it. -/
theorem scanRuns_spec (step : Nat → K) (minRunLengthM : K) {first i rounds : Nat}
    (hrest : Resting inside n first i) (hi : i ≤ n)
    (hrounds : n - i ≤ rounds) :
    let r := scanRuns inside step n minRunLengthM i rounds
    i ≤ r.start ∧
      (r = ⟨n, n⟩ ∨ (Block inside n first r.start r.stop ∧
        Worth step minRunLengthM r.start r.stop)) ∧
      ∀ j, i ≤ j → j < r.start → Skipped inside step n minRunLengthM first j := by
  induction rounds generalizing i with
  | zero =>
    have heq : i = n := by omega
    refine ⟨Nat.le_of_eq heq, .inl rfl, fun j hj hlt => ?_⟩
    have hlt : j < n := hlt
    omega
  | succ rounds ih =>
    obtain ⟨hle, hbound, hall, hend⟩ := skipInside_spec inside i (n - i)
    unfold scanRuns
    dsimp only
    generalize skipInside inside i (n - i) = start at hle hbound hall hend
    have hskipped : ∀ j, i ≤ j → j < start → Skipped inside step n minRunLengthM first j :=
      fun j hj hlt => .inl (hall j hj hlt)
    split
    · rename_i hn
      exact ⟨hi, .inl rfl, fun j hj hlt => hskipped j hj (Nat.lt_of_lt_of_le hlt hn)⟩
    · rename_i hn
      have hstart : inside start = false := hend (by omega)
      obtain ⟨hle', hbound', hall', hend', hsum⟩ := takeOutside_spec inside step
        (start + 1) (n - (start + 1)) 0
      generalize takeOutside inside step (start + 1) 0 (n - (start + 1)) = block
        at hle' hbound' hall' hend' hsum
      rw [zero_add] at hsum
      have hblock : Block inside n first start block.1 := by
        refine ⟨Nat.le_trans hrest.1 hle, hle', by omega, ?_, ?_, ?_⟩
        · intro j hj hlt
          by_cases heq : j = start
          · rw [heq]
            exact hstart
          · exact hall' j (by omega) hlt
        · by_cases heq : start = i
          · rcases hrest.2 with hfirst | hzone | hpast
            · exact .inl (heq.trans hfirst)
            · rw [← heq, hstart] at hzone
              cases hzone
            · omega
          · exact .inr (hall (start - 1) (by omega) (by omega))
        · by_cases heq : block.1 = n
          · exact .inl heq
          · exact .inr (hend' (by omega))
      split
      · rename_i hworth
        refine ⟨hle, .inr ⟨hblock, hworth.1, ?_⟩, hskipped⟩
        show minRunLengthM ≤ ∑ i ∈ Ico (start + 1) block.1, step i
        rw [← hsum]
        exact hworth.2
      · rename_i hworth
        have hshort : ¬Worth step minRunLengthM start block.1 := by
          intro h
          refine hworth ⟨h.1, ?_⟩
          rw [hsum]
          exact h.2
        have hnext : Resting inside n first block.1 :=
          ⟨by have := hrest.1; omega, .inr (hblock.right.symm.imp_right fun h => by omega)⟩
        obtain ⟨hgo, hrun, hbefore⟩ := ih hnext hblock.within (by omega)
        refine ⟨by omega, hrun, fun j hj hlt => ?_⟩
        by_cases hj' : j < start
        · exact hskipped j hj hj'
        · by_cases hj'' : j < block.1
          · exact .inr ⟨start, block.1, hblock, by omega, hj'', hshort⟩
          · exact hbefore j (by omega) hlt

end Specs

/-! ## All the runs -/

section Runs

variable (hypot : K → K → K) (poses : List (Position K)) (digs : List (Position K))
  (radiusM minRunLengthM : K)

/-- There are zones at all. -/
def Zoned : Prop := digs ≠ [] ∧ 0 < radiusM

theorem nextDrivableRun_zoned (hz : Zoned digs radiusM) {first i : Nat}
    (hrest : Resting (insideAt poses digs radiusM) poses.length first i) :
    let inside := insideAt poses digs radiusM
    let step := stepLength hypot poses
    let r := nextDrivableRun hypot poses digs radiusM minRunLengthM i
    (r = ⟨poses.length, poses.length⟩ ∨ (i ≤ r.start ∧
      Block inside poses.length first r.start r.stop ∧ Worth step minRunLengthM r.start r.stop)) ∧
      ∀ j, i ≤ j → j < r.start → Skipped inside step poses.length minRunLengthM first j := by
  unfold nextDrivableRun
  dsimp only
  split
  · exact ⟨.inl rfl, fun j hj hlt => absurd (Nat.lt_of_le_of_lt hj hlt) (by
      show ¬i < poses.length
      omega)⟩
  · split
    · rename_i hnone
      rcases hnone with hempty | hsmall
      · exact absurd (List.isEmpty_iff.1 hempty) hz.1
      · exact absurd hz.2 (not_lt_of_ge hsmall)
    · obtain ⟨hle, hrun, hbefore⟩ := scanRuns_spec (stepLength hypot poses)
        minRunLengthM hrest (by omega) (Nat.le_refl _)
      exact ⟨hrun.imp_right fun h => ⟨hle, h⟩, hbefore⟩

theorem nextDrivableRun_unzoned (hz : ¬Zoned digs radiusM) (i : Nat) :
    nextDrivableRun hypot poses digs radiusM minRunLengthM i =
      if poses.length ≤ i then ⟨poses.length, poses.length⟩ else ⟨i, poses.length⟩ := by
  have hnone : digs.isEmpty = true ∨ radiusM ≤ 0 := by
    by_cases hempty : digs = []
    · exact .inl (List.isEmpty_iff.2 hempty)
    · exact .inr (le_of_not_gt fun hpos => hz ⟨hempty, hpos⟩)
  unfold nextDrivableRun
  dsimp only
  rw [if_pos hnone]

/-- A run that is not empty ends past where it was asked for. -/
theorem nextDrivableRun_advances {i : Nat}
    (h : (nextDrivableRun hypot poses digs radiusM minRunLengthM i).empty = false) :
    i < (nextDrivableRun hypot poses digs radiusM minRunLengthM i).stop ∧
      (nextDrivableRun hypot poses digs radiusM minRunLengthM i).stop ≤ poses.length := by
  have hlt := Nat.lt_of_not_le (of_decide_eq_false h)
  by_cases hz : Zoned digs radiusM
  · obtain ⟨hrun, -⟩ := nextDrivableRun_zoned hypot poses digs radiusM minRunLengthM hz
      (show Resting (insideAt poses digs radiusM) poses.length i i from ⟨Nat.le_refl i, .inl rfl⟩)
    rcases hrun with hrun | ⟨hle, hblock, -⟩
    · rw [hrun] at hlt
      exact absurd hlt (Nat.lt_irrefl _)
    · exact ⟨Nat.lt_of_le_of_lt hle hlt, hblock.within⟩
  · rw [nextDrivableRun_unzoned hypot poses digs radiusM minRunLengthM hz] at hlt ⊢
    split at hlt
    · exact absurd hlt (Nat.lt_irrefl _)
    · rw [if_neg ‹_›]
      exact ⟨hlt, Nat.le_refl _⟩

/-- Each run from the end of the one before, until there is none. -/
def drivableRuns (i : Nat) : List DrivableRun :=
  let r := nextDrivableRun hypot poses digs radiusM minRunLengthM i
  if _h : r.empty = true then [] else r :: drivableRuns r.stop
termination_by poses.length - i
decreasing_by
  have hadvance := nextDrivableRun_advances hypot poses digs radiusM minRunLengthM
    (Bool.eq_false_iff.2 _h)
  omega

theorem drivableRuns_zoned (hz : Zoned digs radiusM) {first i : Nat}
    (hrest : Resting (insideAt poses digs radiusM) poses.length first i) :
    let inside := insideAt poses digs radiusM
    let step := stepLength hypot poses
    let runs := drivableRuns hypot poses digs radiusM minRunLengthM i
    (∀ r ∈ runs, i ≤ r.start ∧ Block inside poses.length first r.start r.stop ∧
      Worth step minRunLengthM r.start r.stop) ∧
    runs.Pairwise (fun r r' => r.stop ≤ r'.start) ∧
    ∀ j, i ≤ j → j < poses.length → (∀ r ∈ runs, ¬(r.start ≤ j ∧ j < r.stop)) →
      Skipped inside step poses.length minRunLengthM first j := by
  intro inside step runs
  obtain ⟨hrun, hbefore⟩ := nextDrivableRun_zoned hypot poses digs radiusM minRunLengthM hz hrest
  have hruns : runs = _ := drivableRuns.eq_1 hypot poses digs radiusM minRunLengthM i
  rw [hruns]
  split
  · rename_i hempty
    refine ⟨fun r hr => (nomatch hr), .nil, fun j hj hlt _ => hbefore j hj ?_⟩
    rcases hrun with hrun | ⟨-, hblock, -⟩
    · rw [hrun]
      exact hlt
    · exact absurd hblock.nonempty (Nat.not_lt.2 (of_decide_eq_true hempty))
  · rename_i hempty
    have hempty := Bool.eq_false_iff.2 hempty
    rcases hrun with hrun | ⟨hle, hblock, hworth⟩
    · rw [hrun] at hempty
      exact absurd (Nat.le_refl poses.length) (of_decide_eq_false hempty)
    · have hnext : Resting inside poses.length first
          (nextDrivableRun hypot poses digs radiusM minRunLengthM i).stop :=
        ⟨Nat.le_trans hblock.from_ (Nat.le_of_lt hblock.nonempty),
          .inr (hblock.right.symm.imp_right fun h => Nat.le_of_eq h.symm)⟩
      have hadvance := nextDrivableRun_advances hypot poses digs radiusM minRunLengthM hempty
      obtain ⟨hall, hpair, hskip⟩ := drivableRuns_zoned hz hnext
      refine ⟨?_, List.pairwise_cons.2 ⟨fun r hr => (hall r hr).1, hpair⟩, ?_⟩
      · intro r hr
        rcases List.mem_cons.1 hr with rfl | hr
        · exact ⟨hle, hblock, hworth⟩
        · obtain ⟨hstart, hrest'⟩ := hall r hr
          exact ⟨Nat.le_trans (Nat.le_of_lt hadvance.1) hstart, hrest'⟩
      · intro j hj hlt hno
        by_cases hj' : j < (nextDrivableRun hypot poses digs radiusM minRunLengthM i).start
        · exact hbefore j hj hj'
        · have hpast : (nextDrivableRun hypot poses digs radiusM minRunLengthM i).stop ≤ j :=
            Nat.le_of_not_lt fun hj'' => hno _ List.mem_cons_self ⟨Nat.le_of_not_lt hj', hj''⟩
          exact hskip j hpast hlt fun r hr => hno r (List.mem_cons_of_mem _ hr)
termination_by poses.length - i
decreasing_by omega

theorem drivableRuns_unzoned (hz : ¬Zoned digs radiusM) (i : Nat) :
    drivableRuns hypot poses digs radiusM minRunLengthM i =
      if poses.length ≤ i then [] else [⟨i, poses.length⟩] := by
  have hend : drivableRuns hypot poses digs radiusM minRunLengthM poses.length = [] := by
    rw [drivableRuns.eq_1, nextDrivableRun_unzoned hypot poses digs radiusM minRunLengthM hz,
      if_pos (Nat.le_refl _)]
    exact dif_pos (decide_eq_true (Nat.le_refl _))
  rw [drivableRuns.eq_1, nextDrivableRun_unzoned hypot poses digs radiusM minRunLengthM hz]
  by_cases hi : poses.length ≤ i
  · rw [if_pos hi, if_pos hi]
    exact dif_pos (decide_eq_true (Nat.le_refl _))
  · rw [if_neg hi, if_neg hi]
    refine (dif_neg ?_).trans (congrArg _ hend)
    exact fun hempty => hi (of_decide_eq_true hempty)

theorem insideAt_unzoned (hz : ¬Zoned digs radiusM) (i : Nat) :
    insideAt poses digs radiusM i = false := by
  unfold insideAt insideDigZone
  split
  · rfl
  · rename_i hpos
    have hempty : digs = [] := by
      by_contra hne
      exact hz ⟨hne, lt_of_not_ge hpos⟩
    rw [hempty]
    rfl

/-- The runs of a unit are what lies outside the zones and is worth it; without zones the unit
    is one run. -/
theorem drivable_runs (first : Nat) :
    let inside := insideAt poses digs radiusM
    let step := stepLength hypot poses
    let runs := drivableRuns hypot poses digs radiusM minRunLengthM first
    runs.Pairwise (fun r r' => r.stop ≤ r'.start) ∧
    (∀ r ∈ runs, first ≤ r.start ∧ r.start < r.stop ∧ r.stop ≤ poses.length ∧
      ∀ j, r.start ≤ j → j < r.stop → inside j = false) ∧
    (Zoned digs radiusM →
      (∀ r ∈ runs, Block inside poses.length first r.start r.stop ∧
        Worth step minRunLengthM r.start r.stop) ∧
      ∀ j, first ≤ j → j < poses.length → (∀ r ∈ runs, ¬(r.start ≤ j ∧ j < r.stop)) →
        Skipped inside step poses.length minRunLengthM first j) ∧
    (¬Zoned digs radiusM →
      runs = if poses.length ≤ first then [] else [⟨first, poses.length⟩]) := by
  intro inside step runs
  by_cases hz : Zoned digs radiusM
  · obtain ⟨hall, hpair, hskip⟩ := drivableRuns_zoned hypot poses digs radiusM minRunLengthM hz
      (show Resting (insideAt poses digs radiusM) poses.length first first from
        ⟨Nat.le_refl first, .inl rfl⟩)
    refine ⟨hpair, fun r hr => ?_, fun _ => ⟨fun r hr => (hall r hr).2, hskip⟩,
      fun hno => absurd hz hno⟩
    obtain ⟨hle, hblock, -⟩ := hall r hr
    exact ⟨hle, hblock.nonempty, hblock.within, hblock.outside⟩
  · have hruns : runs = _ := drivableRuns_unzoned hypot poses digs radiusM minRunLengthM hz first
    have hinside := insideAt_unzoned poses digs radiusM hz
    rw [hruns]
    refine ⟨?_, ?_, fun hyes => absurd hyes hz, fun _ => rfl⟩
    · split
      · exact .nil
      · exact List.pairwise_singleton _ _
    · intro r hr
      split at hr
      · cases hr
      · rename_i hlt
        rw [List.mem_singleton.1 hr]
        exact ⟨Nat.le_refl _, Nat.lt_of_not_le hlt, Nat.le_refl _, fun j _ _ => hinside j⟩

end Runs

/-- A radius of 0 makes no zone, and then a run need not be worth it. -/
theorem unzoned_run_short :
    ¬∀ (hypot : ℚ → ℚ → ℚ) (poses digs : List (Position ℚ)) (radiusM minRunLengthM : ℚ), digs ≠ [] →
      ∀ r ∈ drivableRuns hypot poses digs radiusM minRunLengthM 0,
        Worth (stepLength hypot poses) minRunLengthM r.start r.stop := by
  intro h
  have hone := h (fun dx dy => |dx| + |dy|) [⟨0, 0⟩] [⟨5, 0⟩] 0 1 nofun ⟨0, 1⟩ (by
    rw [drivableRuns_unzoned _ _ _ _ _ fun hz => lt_irrefl _ hz.2]
    exact List.mem_singleton.2 rfl)
  exact absurd hone.1 (by decide)

end Coverage
end Mowgli
