import Mathlib.Data.List.Basic

/-!
# Fresh — numbers handed out by a counter

Numbers that stay below a counter. The counter itself is then none of them, and moving it past
a number that came from elsewhere keeps this.
-/

namespace Mowgli
namespace Fresh

/-- Every number seen so far is below the counter. -/
def Below (seen : List Nat) (next : Nat) : Prop := ∀ n ∈ seen, n < next

theorem Below.nil (next : Nat) : Below [] next := by
  intro n hn
  cases hn

variable {next : Nat}

theorem Below.not_mem {seen : List Nat} (h : Below seen next) : next ∉ seen := by
  intro hmem
  exact Nat.lt_irrefl next (h next hmem)

theorem Below.mono {seen : List Nat} {m n : Nat} (h : Below seen m) (hmn : m ≤ n) :
    Below seen n := by
  intro k hk
  exact Nat.lt_of_lt_of_le (h k hk) hmn

theorem Below.append {xs ys : List Nat} (hx : Below xs next) (hy : Below ys next) :
    Below (xs ++ ys) next := by
  intro n hn
  rcases List.mem_append.1 hn with hn | hn
  · exact hx n hn
  · exact hy n hn

theorem Below.cons {seen : List Nat} {n next : Nat} (hn : n < next) (h : Below seen next) :
    Below (n :: seen) next := by
  intro k hk
  rcases List.mem_cons.1 hk with rfl | hk
  · exact hn
  · exact h k hk

theorem Below.subset {xs ys : List Nat} (h : Below ys next) (hsub : ∀ n ∈ xs, n ∈ ys) :
    Below xs next :=
  fun n hn => h n (hsub n hn)

/-- The counter moved past everything of a list. -/
def past (next : Nat) (ids : List Nat) : Nat := ids.foldl (fun n id => max n (id + 1)) next

theorem le_past (next : Nat) (ids : List Nat) : next ≤ past next ids := by
  induction ids generalizing next with
  | nil => exact Nat.le_refl next
  | cons id ids ih => exact Nat.le_trans (Nat.le_max_left next (id + 1)) (ih (max next (id + 1)))

theorem below_past (next : Nat) (ids : List Nat) : Below ids (past next ids) := by
  induction ids generalizing next with
  | nil => exact Below.nil next
  | cons id ids ih =>
    refine Below.cons ?_ (ih (max next (id + 1)))
    have hle := le_past (max next (id + 1)) ids
    have hid : id + 1 ≤ max next (id + 1) := Nat.le_max_right next (id + 1)
    exact Nat.lt_of_lt_of_le (Nat.lt_succ_self id) (Nat.le_trans hid hle)

theorem past_le {bound : Nat} {ids : List Nat} (hnext : next ≤ bound) (h : Below ids bound) :
    past next ids ≤ bound := by
  induction ids generalizing next with
  | nil => exact hnext
  | cons id ids ih =>
    have hid : id < bound := h id List.mem_cons_self
    exact ih (Nat.max_le.2 ⟨hnext, hid⟩) fun n hn => h n (List.mem_cons_of_mem id hn)

end Fresh
end Mowgli
