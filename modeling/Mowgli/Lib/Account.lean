import Mathlib.Data.List.Count

/-!
# Account — what of a list was kept, and how much was not

Things come one at a time, some of them matter, and some of those are kept. `missing` is how many
that matter were not: it grows by one at most with each thing that comes, and by none if the thing
does not matter or is kept.
-/

namespace Mowgli
namespace Account

variable {α : Type} [DecidableEq α]

def missing (matters : α → Bool) (kept xs : List α) : Nat :=
  xs.countP fun x => matters x && !decide (x ∈ kept)

variable {matters : α → Bool} {kept xs : List α}

theorem missing_eq_zero (h : ∀ x ∈ xs, matters x = true → x ∈ kept) :
    missing matters kept xs = 0 := by
  rw [missing, List.countP_eq_zero]
  intro x hx
  by_cases hm : matters x = true
  · simp [h x hx hm]
  · simp [hm]

theorem missing_append (xs ys : List α) :
    missing matters kept (xs ++ ys) = missing matters kept xs + missing matters kept ys :=
  List.countP_append

/-- Keeping more does not make more missing. -/
theorem missing_mono (matters : α → Bool) {kept' : List α} (h : ∀ x ∈ kept, x ∈ kept')
    (xs : List α) :
    missing matters kept' xs ≤ missing matters kept xs := by
  refine List.countP_mono_left fun x _ hx => ?_
  simp only [Bool.and_eq_true, Bool.not_eq_true', decide_eq_false_iff_not] at hx ⊢
  exact ⟨hx.1, fun hmem => hx.2 (h x hmem)⟩

theorem missing_single_le (x : α) : missing matters kept [x] ≤ 1 := List.countP_le_length

theorem missing_snoc_le (matters : α → Bool) (kept xs : List α) (x : α) :
    missing matters kept (xs ++ [x]) ≤ missing matters kept xs + 1 := by
  rw [missing_append]
  exact Nat.add_le_add_left (missing_single_le x) _

/-- A thing that does not matter or was kept. -/
theorem missing_snoc (xs : List α) {x : α} (h : matters x = true → x ∈ kept) :
    missing matters kept (xs ++ [x]) = missing matters kept xs := by
  have hone : missing matters kept [x] = 0 := by
    refine missing_eq_zero fun y hy hm => ?_
    rw [List.mem_singleton.1 hy] at hm ⊢
    exact h hm
  rw [missing_append, hone, Nat.add_zero]

end Account
end Mowgli
