import Mathlib.Data.List.Basic

/-!
# Delta — a list sent as its changes

`diff` lists the places where two lists of one length differ, each as its distance from the
place before and the new value; `apply` walks them over the old list. A walk that leaves the
list has no result.
-/

namespace Mowgli
namespace Delta

variable {α : Type}

/-- From index `i`, when the last change stood at `prev`. -/
def diffFrom [DecidableEq α] (i prev : Nat) : List α → List α → List (Int × α)
  | a :: old, b :: new =>
    if b ≠ a then ((i : Int) - prev, b) :: diffFrom (i + 1) i old new
    else diffFrom (i + 1) prev old new
  | _, _ => []

def diff [DecidableEq α] (old new : List α) : List (Int × α) := diffFrom 0 0 old new

def applyFrom (i : Int) (cells : List α) : List (Int × α) → Option (List α)
  | [] => some cells
  | (gap, v) :: rest =>
    if i + gap < 0 ∨ (cells.length : Int) ≤ i + gap then none
    else applyFrom (i + gap) (cells.set (i + gap).toNat v) rest

def apply (cells : List α) (changes : List (Int × α)) : Option (List α) :=
  applyFrom 0 cells changes

variable [DecidableEq α]

/-- The cells before the walk are new already, those behind it still old. -/
theorem applyFrom_diffFrom {pre old new : List α} {prev : Nat} (h : old.length = new.length) :
    applyFrom prev (pre ++ old) (diffFrom pre.length prev old new) = some (pre ++ new) := by
  induction old generalizing pre new prev with
  | nil =>
    cases new with
    | nil => rfl
    | cons b new => cases h
  | cons a old ih =>
    cases new with
    | nil => cases h
    | cons b new =>
      have hnext : (pre ++ [b]).length = pre.length + 1 := by simp
      have hlen : old.length = new.length := Nat.succ.inj h
      unfold diffFrom
      by_cases hab : b = a
      · subst hab
        rw [if_neg (not_not.2 rfl), ← hnext, List.append_cons, List.append_cons pre b new]
        exact ih hlen
      · rw [if_pos hab, applyFrom]
        have hat : (prev : Int) + ((pre.length : Int) - prev) = (pre.length : Int) := by omega
        have hin : ¬ ((pre.length : Int) < 0 ∨ ((pre ++ a :: old).length : Int) ≤ pre.length) := by
          rw [List.length_append, List.length_cons]
          omega
        rw [hat, if_neg hin, Int.toNat_natCast, List.set_append_right _ _ (Nat.le_refl _), Nat.sub_self,
          List.set_cons_zero, ← hnext, List.append_cons, List.append_cons pre b new]
        exact ih hlen

theorem apply_diff {old new : List α} (h : old.length = new.length) :
    apply old (diff old new) = some new :=
  @applyFrom_diffFrom _ _ [] _ _ 0 h

end Delta
end Mowgli
