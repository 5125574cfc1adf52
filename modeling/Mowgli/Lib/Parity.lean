import Mathlib.Data.List.Basic

/-!
# Parity — counting along a list, and around a closed walk

A flag that is toggled at some elements says whether their number is odd. Around a closed walk
any property changes an even number of times. In a list where a property holds from some place
on, the elements that have it are the rest of a scan.
-/

namespace Mowgli
namespace Parity

variable {α : Type}

def odd (n : Nat) : Bool := n % 2 == 1

theorem odd_succ (n : Nat) : odd (n + 1) = !odd n := by
  unfold odd
  rcases Nat.mod_two_eq_zero_or_one n with h | h <;> simp [Nat.add_mod, h]

/-- A flag toggled at the elements with a property. -/
theorem foldl_toggle (p : α → Bool) (l : List α) (flag : Bool) :
    l.foldl (fun b a => if p a then !b else b) flag = (flag != odd (l.countP p)) := by
  induction l generalizing flag with
  | nil => cases flag <;> rfl
  | cons a l ih =>
    rw [List.foldl_cons, ih]
    cases hp : p a with
    | false => rw [List.countP_cons_of_neg (by simp [hp]), if_neg (by simp)]
    | true =>
      rw [List.countP_cons_of_pos hp, odd_succ, if_pos rfl]
      cases flag <;> cases odd (l.countP p) <;> rfl

theorem odd_countP_cons (p : α → Bool) (a : α) (l : List α) :
    odd ((a :: l).countP p) = (p a != odd (l.countP p)) := by
  cases hp : p a with
  | false => rw [List.countP_cons_of_neg (by simp [hp]), Bool.false_bne]
  | true => rw [List.countP_cons_of_pos hp, odd_succ, Bool.true_bne]

/-- Two properties differ an odd number of times when their numbers differ in parity. -/
theorem odd_countP_bne (p q : α → Bool) (l : List α) :
    odd (l.countP fun a => p a != q a) = (odd (l.countP p) != odd (l.countP q)) := by
  induction l with
  | nil => rfl
  | cons a l ih =>
    rw [odd_countP_cons, odd_countP_cons, odd_countP_cons, ih]
    cases p a <;> cases q a <;> cases odd (l.countP p) <;> cases odd (l.countP q) <;> rfl

/-! ## Walks -/

/-- Along a walk a property changes an odd number of times when the ends differ in it. -/
theorem odd_changes (f : α → Bool) (a : α) (l : List α) :
    odd (((a :: l).zip l).countP fun e => f e.2 != f e.1) = (f (l.getLast?.getD a) != f a) := by
  induction l generalizing a with
  | nil =>
    show false = (f a != f a)
    simp
  | cons b l ih =>
    have hlast : (b :: l).getLast?.getD a = l.getLast?.getD b := by
      rw [List.getLast?_cons, Option.getD_some]
    rw [List.zip_cons_cons, hlast]
    cases hab : f b != f a with
    | false =>
      rw [List.countP_cons_of_neg (by simp [hab]), ih, bne_eq_false_iff_eq.1 hab]
    | true =>
      rw [List.countP_cons_of_pos (by exact hab), odd_succ, ih]
      revert hab
      cases f b <;> cases f a <;> cases f (l.getLast?.getD b) <;> decide

/-- Around a closed walk it changes an even number of times. -/
theorem changes_closed (f : α → Bool) (l : List α) :
    odd (((l.getLast?.toList ++ l).zip l).countP fun e => f e.2 != f e.1) = false := by
  cases hlast : l.getLast? with
  | none =>
    rw [List.getLast?_eq_none_iff.1 hlast]
    rfl
  | some a =>
    rw [Option.toList_some, List.singleton_append, odd_changes, hlast]
    simp

/-! ## Scans -/

variable {p : α → Bool}

/-- A property that stays once it holds: the scan over those without it stops at the first. -/
theorem length_dropWhile_not :
    ∀ {l : List α}, l.Pairwise (fun x y => p x = true → p y = true) →
      (l.dropWhile fun a => !p a).length = l.countP p
  | [], _ => rfl
  | a :: l, h => by
    obtain ⟨hhead, htail⟩ := List.pairwise_cons.1 h
    cases hp : p a with
    | false =>
      rw [List.dropWhile_cons_of_pos (by simp [hp]), List.countP_cons_of_neg (by simp [hp])]
      exact length_dropWhile_not htail
    | true =>
      have hall : ∀ x ∈ a :: l, p x = true := by
        intro x hx
        rcases List.mem_cons.1 hx with rfl | hx
        · exact hp
        · exact hhead x hx hp
      rw [List.dropWhile_cons_of_neg (by simp [hp]), List.countP_eq_length.2 hall]

/-- A scan does not pass an element without the property. -/
theorem length_takeWhile_le {l : List α} {i : Nat} {a : α} (ha : l[i]? = some a) (hp : p a = false)
    : (l.takeWhile p).length ≤ i := by
  induction l generalizing i with
  | nil => cases ha
  | cons b l ih =>
    cases hb : p b with
    | false =>
      rw [List.takeWhile_cons_of_neg (by simp [hb])]
      exact Nat.zero_le _
    | true =>
      rw [List.takeWhile_cons_of_pos hb, List.length_cons]
      cases i with
      | zero =>
        cases ha
        rw [hb] at hp
        cases hp
      | succ i => exact Nat.succ_le_succ (ih ha)

/-- It passes every element with the property when the elements before have it too. -/
theorem lt_length_takeWhile {l : List α} {i : Nat} {a : α}
    (h : l.Pairwise fun x y => p y = true → p x = true) (ha : l[i]? = some a) (hp : p a = true) :
    i < (l.takeWhile p).length := by
  induction l generalizing i with
  | nil => cases ha
  | cons b l ih =>
    obtain ⟨hhead, htail⟩ := List.pairwise_cons.1 h
    have hb : p b = true := by
      cases i with
      | zero =>
        cases ha
        exact hp
      | succ i => exact hhead a (List.mem_of_getElem? ha) hp
    rw [List.takeWhile_cons_of_pos hb, List.length_cons]
    cases i with
    | zero => exact Nat.succ_pos _
    | succ i => exact Nat.succ_lt_succ (ih htail ha)

end Parity
end Mowgli
