import Mathlib.Data.List.Sort

/-!
# Ranks — sorted lists and the place of an element in one

Every party sorts the same things for itself. What it gets does not depend on the order it met
them in, and the places of distinct elements are the numbers from 0.
-/

namespace Mowgli
namespace Ranks

variable {α : Type} [LinearOrder α]

/-- Sorted, smallest first. -/
def sorted (l : List α) : List α := l.mergeSort fun a b => decide (a ≤ b)

/-- The first place that is not before an element. -/
def rank (a : α) (l : List α) : Nat := l.findIdx fun b => decide (a ≤ b)

theorem sorted_perm (l : List α) : (sorted l).Perm l := List.mergeSort_perm l _

theorem pairwise_sorted (l : List α) : (sorted l).Pairwise (· ≤ ·) := by
  have h : (sorted l).Pairwise fun a b => decide (a ≤ b) = true := by
    refine List.pairwise_mergeSort ?_ ?_ l
    · intro a b c hab hbc
      exact decide_eq_true (le_trans (of_decide_eq_true hab) (of_decide_eq_true hbc))
    · intro a b
      rw [Bool.or_eq_true, decide_eq_true_eq, decide_eq_true_eq]
      exact le_total a b
  exact h.imp fun hab => of_decide_eq_true hab

variable {l : List α}

/-- Without repetition the order is strict. -/
theorem pairwise_lt_sorted (h : l.Nodup) : (sorted l).Pairwise (· < ·) := by
  have hnodup : (sorted l).Pairwise (· ≠ ·) := (sorted_perm l).nodup_iff.2 h
  exact ((pairwise_sorted l).and hnodup).imp fun hab => lt_of_le_of_ne hab.1 hab.2

theorem sorted_congr {l' : List α} (h : l.Perm l') : sorted l = sorted l' := by
  refine List.Perm.eq_of_pairwise ?_ (pairwise_sorted l) (pairwise_sorted l') ?_
  · exact fun a b _ _ hab hba => le_antisymm hab hba
  exact (sorted_perm l).trans (h.trans (sorted_perm l').symm)

/-- In an increasing list the rank of an entry is its index. -/
theorem rank_getElem (h : l.Pairwise (· < ·)) {i : Nat} (hi : i < l.length) : rank l[i] l = i := by
  refine (List.findIdx_eq hi).2 ⟨decide_eq_true (le_refl _), ?_⟩
  intro j hj
  have hlt := List.pairwise_iff_getElem.1 h j i (Nat.lt_trans hj hi) hi hj
  exact decide_eq_false (not_le_of_gt hlt)

/-- The ranks of distinct elements among themselves. -/
theorem ranks_perm (h : l.Nodup) :
    (l.map fun a => rank a (sorted l)).Perm (List.range l.length) := by
  have hperm := (sorted_perm l).symm.map fun a => rank a (sorted l)
  refine hperm.trans (List.Perm.of_eq ?_)
  refine List.ext_getElem ?_ ?_
  · rw [List.length_map, List.length_range, (sorted_perm l).length_eq]
  · intro i hi hi'
    rw [List.getElem_map, List.getElem_range]
    exact rank_getElem (pairwise_lt_sorted h) _

/-- One of some things has the least value. -/
theorem exists_least {β : Type} (f : β → α) {p : β → Prop} {l : List β} (h : ∃ b ∈ l, p b) :
    ∃ b ∈ l, p b ∧ ∀ b' ∈ l, p b' → f b ≤ f b' := by
  induction l with
  | nil =>
    obtain ⟨b, hb, -⟩ := h
    cases hb
  | cons a l ih =>
    by_cases hrest : ∃ b ∈ l, p b
    · obtain ⟨b, hb, hpb, hleast⟩ := ih hrest
      by_cases ha : p a ∧ f a ≤ f b
      · refine ⟨a, List.mem_cons_self, ha.1, ?_⟩
        intro b' hb' hpb'
        rcases List.mem_cons.1 hb' with rfl | hb'
        · exact le_refl _
        · exact le_trans ha.2 (hleast b' hb' hpb')
      · refine ⟨b, List.mem_cons_of_mem a hb, hpb, ?_⟩
        intro b' hb' hpb'
        rcases List.mem_cons.1 hb' with rfl | hb'
        · exact le_of_not_ge fun hle => ha ⟨hpb', hle⟩
        · exact hleast b' hb' hpb'
    · obtain ⟨b, hb, hpb⟩ := h
      rcases List.mem_cons.1 hb with rfl | hb
      · refine ⟨b, List.mem_cons_self, hpb, ?_⟩
        intro b' hb' hpb'
        rcases List.mem_cons.1 hb' with rfl | hb'
        · exact le_refl _
        · exact absurd ⟨b', hb', hpb'⟩ hrest
      · exact absurd ⟨b, hb, hpb⟩ hrest

end Ranks
end Mowgli
