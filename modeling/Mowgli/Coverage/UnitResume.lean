import Mathlib.Data.Nat.Basic
import Mathlib.Data.List.Induction

/-!
# Unit resume — what happens to the rest of a coverage unit

`DecideUnitResume` of `unit_resume.hpp`. After an abort the rest of the unit is driven again from
a stepped cursor, unless too little is left or too many resumes in a row made no progress.
-/

namespace Mowgli
namespace Coverage

structure UnitResumeCfg where
  /-- Resumes without progress before the unit is given up. -/
  maxConsecutive : Nat := 5
  /-- Poses that count as progress. -/
  progressResetPoses : Nat := 135
  minRemainingPoses : Nat := 27

structure UnitResumeDecision where
  resume : Bool
  consecutive : Nat

variable (cfg : UnitResumeCfg)

/-- No sum leaves `size_t`: the counter stays within its bound. -/
def decideUnitResume (unitPoses reachedIdx resumeIdx consecutive : Nat) : UnitResumeDecision :=
  let spent := if cfg.progressResetPoses ≤ reachedIdx then 0 else consecutive
  if unitPoses ≤ resumeIdx ∨ unitPoses - resumeIdx < cfg.minRemainingPoses then ⟨false, spent⟩
  else if cfg.maxConsecutive ≤ spent then ⟨false, spent⟩
  else ⟨true, spent + 1⟩

/-! ## A unit and its aborts -/

structure Abort where
  reachedIdx : Nat
  resumeIdx : Nat

/-- The cursor is stepped past what was reached. -/
structure Abort.Stepped (a : Abort) : Prop where
  past : a.reachedIdx ≤ a.resumeIdx
  forward : 1 ≤ a.resumeIdx

/-- What is left of a unit, and the counter that is fed back. -/
structure Remainder where
  unitPoses : Nat
  consecutive : Nat

/-- The rest after an abort; `none` when the unit is given up. -/
def Remainder.abort (u : Remainder) (a : Abort) : Option Remainder :=
  let d := decideUnitResume cfg u.unitPoses a.reachedIdx a.resumeIdx u.consecutive
  if d.resume then some ⟨u.unitPoses - a.resumeIdx, d.consecutive⟩ else none

/-- The rest after some aborts that were all resumed. -/
def Remainder.after (u : Remainder) : List Abort → Option Remainder
  | [] => some u
  | a :: aborts => (u.abort cfg a).bind fun u' => u'.after aborts

/-- How many resumes are granted before one is refused. -/
def Remainder.granted (u : Remainder) : List Abort → Nat
  | [] => 0
  | a :: aborts =>
    match u.abort cfg a with
    | none => 0
    | some u' => u'.granted aborts + 1

def Abort.progresses (a : Abort) : Bool := cfg.progressResetPoses ≤ a.reachedIdx

/-- No progress was made in the last so many of some aborts. -/
def Stalled (n : Nat) (aborts : List Abort) : Prop :=
  n ≤ aborts.length ∧ ∀ a ∈ aborts.drop (aborts.length - n), a.progresses cfg = false

variable {cfg} {u u' : Remainder} {a : Abort}

/-! ## One abort -/

/-- The counter that an abort starts from. -/
def Remainder.spent (cfg : UnitResumeCfg) (u : Remainder) (a : Abort) : Nat :=
  if cfg.progressResetPoses ≤ a.reachedIdx then 0 else u.consecutive

theorem spent_cases (cfg : UnitResumeCfg) (u : Remainder) (a : Abort) :
    (a.progresses cfg = true ∧ u.spent cfg a = 0) ∨
      (a.progresses cfg = false ∧ u.spent cfg a = u.consecutive) := by
  unfold Remainder.spent Abort.progresses
  split
  · rename_i hp
    exact .inl ⟨decide_eq_true hp, rfl⟩
  · rename_i hp
    exact .inr ⟨decide_eq_false hp, rfl⟩

/-- A resume is granted and leaves enough, or refused for want of poses or of patience. -/
theorem abort_cases (cfg : UnitResumeCfg) (u : Remainder) (a : Abort) :
    (a.resumeIdx < u.unitPoses ∧ cfg.minRemainingPoses ≤ u.unitPoses - a.resumeIdx ∧
        u.spent cfg a < cfg.maxConsecutive ∧
        u.abort cfg a = some ⟨u.unitPoses - a.resumeIdx, u.spent cfg a + 1⟩) ∨
      ((u.unitPoses ≤ a.resumeIdx ∨ u.unitPoses - a.resumeIdx < cfg.minRemainingPoses ∨
          cfg.maxConsecutive ≤ u.spent cfg a) ∧ u.abort cfg a = none) := by
  have habort : u.abort cfg a =
      if (if u.unitPoses ≤ a.resumeIdx ∨ u.unitPoses - a.resumeIdx < cfg.minRemainingPoses then
            (⟨false, u.spent cfg a⟩ : UnitResumeDecision)
          else if cfg.maxConsecutive ≤ u.spent cfg a then ⟨false, u.spent cfg a⟩
          else ⟨true, u.spent cfg a + 1⟩).resume then
        some ⟨u.unitPoses - a.resumeIdx,
          (if u.unitPoses ≤ a.resumeIdx ∨ u.unitPoses - a.resumeIdx < cfg.minRemainingPoses then
            (⟨false, u.spent cfg a⟩ : UnitResumeDecision)
          else if cfg.maxConsecutive ≤ u.spent cfg a then ⟨false, u.spent cfg a⟩
          else ⟨true, u.spent cfg a + 1⟩).consecutive⟩
      else none := rfl
  rw [habort]
  by_cases hleft : u.unitPoses ≤ a.resumeIdx ∨ u.unitPoses - a.resumeIdx < cfg.minRemainingPoses
  · rw [if_pos hleft]
    exact .inr ⟨hleft.imp_right Or.inl, rfl⟩
  · rw [if_neg hleft]
    obtain ⟨hlt, hmin⟩ := not_or.1 hleft
    by_cases hmax : cfg.maxConsecutive ≤ u.spent cfg a
    · rw [if_pos hmax]
      exact .inr ⟨.inr (.inr hmax), rfl⟩
    · rw [if_neg hmax]
      exact .inl ⟨Nat.lt_of_not_le hlt, Nat.le_of_not_lt hmin, Nat.lt_of_not_le hmax, rfl⟩

/-! ## All of them -/

/-- What may still be granted: the resumes left in this row, and a full row for every time there
    can still be progress. -/
theorem granted_le (hreset : 1 ≤ cfg.progressResetPoses) (aborts : List Abort)
    (hstepped : ∀ a ∈ aborts, a.Stepped) (hu : u.consecutive ≤ cfg.maxConsecutive) :
    u.granted cfg aborts ≤ cfg.maxConsecutive - u.consecutive +
      cfg.maxConsecutive * (u.unitPoses / cfg.progressResetPoses) := by
  induction aborts generalizing u with
  | nil => exact Nat.zero_le _
  | cons a aborts ih =>
    unfold Remainder.granted
    rcases abort_cases cfg u a with ⟨hlt, -, hroom, habort⟩ | ⟨-, habort⟩
    · rw [habort]
      have hrest : Remainder.granted cfg ⟨u.unitPoses - a.resumeIdx, u.spent cfg a + 1⟩ aborts ≤
          cfg.maxConsecutive - (u.spent cfg a + 1) + cfg.maxConsecutive *
            ((u.unitPoses - a.resumeIdx) / cfg.progressResetPoses) :=
        ih (fun b hb => hstepped b (List.mem_cons_of_mem a hb)) hroom
      dsimp only
      rcases spent_cases cfg u a with ⟨hp, hspent⟩ | ⟨-, hspent⟩
      · have hreached := of_decide_eq_true hp
        have hpast := (hstepped a List.mem_cons_self).past
        -- Progress is paid for with the poses that are gone.
        have hrows : (u.unitPoses - a.resumeIdx) / cfg.progressResetPoses + 1 ≤
            u.unitPoses / cfg.progressResetPoses := by
          rw [← Nat.add_div_right _ hreset]
          exact Nat.div_le_div_right (by omega)
        have hmul := Nat.mul_le_mul_left cfg.maxConsecutive hrows
        rw [Nat.mul_add, Nat.mul_one] at hmul
        omega
      · have hrows : (u.unitPoses - a.resumeIdx) / cfg.progressResetPoses ≤
            u.unitPoses / cfg.progressResetPoses := Nat.div_le_div_right (Nat.sub_le _ _)
        have hmul := Nat.mul_le_mul_left cfg.maxConsecutive hrows
        omega
    · rw [habort]
      exact Nat.zero_le _

theorem after_append (aborts : List Abort) (a : Abort) :
    u.after cfg (aborts ++ [a]) = (u.after cfg aborts).bind fun u' => u'.abort cfg a := by
  induction aborts generalizing u with
  | nil =>
    show (u.abort cfg a).bind _ = u.abort cfg a
    cases u.abort cfg a <;> rfl
  | cons b aborts ih =>
    show (u.abort cfg b).bind _ = ((u.abort cfg b).bind _).bind _
    cases u.abort cfg b with
    | none => rfl
    | some u' => exact ih

theorem stalled_zero (aborts : List Abort) : Stalled cfg 0 aborts := by
  refine ⟨Nat.zero_le _, fun a ha => ?_⟩
  rw [Nat.sub_zero, List.drop_length] at ha
  cases ha

theorem Stalled.append {n : Nat} {aborts : List Abort} (h : Stalled cfg n aborts)
    (ha : a.progresses cfg = false) : Stalled cfg (n + 1) (aborts ++ [a]) := by
  obtain ⟨hlen, hall⟩ := h
  unfold Stalled
  rw [List.length_append, List.length_singleton, Nat.add_sub_add_right,
    List.drop_append_of_le_length (Nat.sub_le _ _)]
  refine ⟨Nat.succ_le_succ hlen, fun b hb => ?_⟩
  rcases List.mem_append.1 hb with hb | hb
  · exact hall b hb
  · rw [List.mem_singleton.1 hb]
    exact ha

theorem Stalled.mono {n k : Nat} {aborts : List Abort} (h : Stalled cfg n aborts) (hk : k ≤ n) :
    Stalled cfg k aborts := by
  obtain ⟨hlen, hall⟩ := h
  refine ⟨Nat.le_trans hk hlen, fun a ha => hall a ?_⟩
  have hdrop : aborts.length - k = (aborts.length - n) + (n - k) := by omega
  rw [hdrop, ← List.drop_drop] at ha
  exact List.mem_of_mem_drop ha

/-- The counter counts the aborts without progress, and the one before them. -/
theorem after_stalled {poses : Nat} (aborts : List Abort)
    (h : (⟨poses, 0⟩ : Remainder).after cfg aborts = some u) :
    u.consecutive ≤ aborts.length ∧ Stalled cfg (u.consecutive - 1) aborts := by
  induction aborts using List.reverseRecOn generalizing u with
  | nil =>
    cases h
    exact ⟨Nat.le_refl 0, stalled_zero []⟩
  | append_singleton aborts a ih =>
    rw [after_append] at h
    obtain ⟨v, hv, habort⟩ := Option.bind_eq_some_iff.1 h
    obtain ⟨hle, hstalled⟩ := ih hv
    rcases abort_cases cfg v a with ⟨-, -, -, hsome⟩ | ⟨-, hnone⟩
    · rw [hsome] at habort
      cases habort
      rw [List.length_append, List.length_singleton]
      rcases spent_cases cfg v a with ⟨-, hspent⟩ | ⟨hp, hspent⟩
      · rw [hspent]
        exact ⟨Nat.succ_le_succ (Nat.zero_le _), stalled_zero _⟩
      · rw [hspent]
        refine ⟨Nat.succ_le_succ hle, ?_⟩
        exact (hstalled.append hp).mono (Nat.le_succ_of_pred_le (Nat.le_refl _))
    · rw [hnone] at habort
      cases habort

/-- Resuming ends, leaves nothing too short, and gives a unit up only when it stalls. -/
theorem unit_resume_ends (cfg : UnitResumeCfg) (poses : Nat) (aborts : List Abort)
    (hstepped : ∀ a ∈ aborts, a.Stepped) :
    (1 ≤ cfg.progressResetPoses → (⟨poses, 0⟩ : Remainder).granted cfg aborts ≤
      cfg.maxConsecutive * (1 + poses / cfg.progressResetPoses)) ∧
    ∀ before a after, aborts = before ++ a :: after →
      ∀ u, (⟨poses, 0⟩ : Remainder).after cfg before = some u →
        (∀ u', u.abort cfg a = some u' → u'.unitPoses = u.unitPoses - a.resumeIdx ∧
          cfg.minRemainingPoses ≤ u'.unitPoses) ∧
        (u.abort cfg a = none → a.resumeIdx < u.unitPoses →
          cfg.minRemainingPoses ≤ u.unitPoses - a.resumeIdx →
          cfg.maxConsecutive ≤ before.length ∧
            Stalled cfg cfg.maxConsecutive (before ++ [a])) := by
  refine ⟨fun hreset => ?_, ?_⟩
  · have h := granted_le (u := ⟨poses, 0⟩) hreset aborts hstepped (Nat.zero_le _)
    rw [Nat.mul_add, Nat.mul_one]
    exact h
  · rintro before a after - u hu
    obtain ⟨hle, hstalled⟩ := after_stalled before hu
    refine ⟨fun u' hu' => ?_, fun hnone hlt hmin => ?_⟩
    · rcases abort_cases cfg u a with ⟨-, hmin, -, hsome⟩ | ⟨-, hnone⟩
      · rw [hsome] at hu'
        cases hu'
        exact ⟨rfl, hmin⟩
      · rw [hnone] at hu'
        cases hu'
    · rcases abort_cases cfg u a with ⟨-, -, -, hsome⟩ | ⟨hwhy, -⟩
      · rw [hsome] at hnone
        cases hnone
      · rcases hwhy with hwhy | hwhy | hspent
        · exact absurd hlt (Nat.not_lt.2 hwhy)
        · exact absurd hmin (Nat.not_le.2 hwhy)
        · rcases spent_cases cfg u a with ⟨-, hzero⟩ | ⟨hp, hsame⟩
          · rw [hzero] at hspent
            rw [Nat.le_zero.1 hspent]
            exact ⟨Nat.zero_le _, stalled_zero _⟩
          · rw [hsame] at hspent
            refine ⟨Nat.le_trans hspent hle, (hstalled.append hp).mono (by omega)⟩

/-- Where no remainder is too short, the empty one is refused all the same. -/
theorem empty_remainder_refused :
    ¬∀ (cfg : UnitResumeCfg) (poses : Nat) (a : Abort), a.Stepped →
      (⟨poses, 0⟩ : Remainder).abort cfg a = none →
      cfg.minRemainingPoses ≤ poses - a.resumeIdx →
      Stalled cfg cfg.maxConsecutive [a] := by
  intro h
  have hstalled := h ⟨2, 1, 0⟩ 1 ⟨0, 1⟩ ⟨by decide, by decide⟩ rfl (by decide)
  exact absurd hstalled.1 (by decide)

/-- Three granted resumes, one of them after progress, and a refusal. -/
theorem unit_resume_ends_thrice :
    (⟨60, 0⟩ : Remainder).granted ⟨2, 10, 5⟩ [⟨3, 4⟩, ⟨12, 13⟩, ⟨1, 2⟩, ⟨0, 1⟩] ≤
      2 * (1 + 60 / 10) := by
  refine (unit_resume_ends ⟨2, 10, 5⟩ 60 [⟨3, 4⟩, ⟨12, 13⟩, ⟨1, 2⟩, ⟨0, 1⟩] ?_).1 (by decide)
  intro a ha
  simp only [List.mem_cons, List.not_mem_nil, or_false] at ha
  rcases ha with rfl | rfl | rfl | rfl <;> exact ⟨by decide, by decide⟩

end Coverage
end Mowgli
