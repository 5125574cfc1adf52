import Mathlib.Algebra.Ring.Nat
import Mathlib.Data.List.AList

/-!
# Weight — what the names of a table weigh together

A table of names where each name has a weight by what it stands for. An entry comes and goes with
its own weight; what stands for an entry that weighs nothing does not count.
-/

namespace Mowgli
namespace Weight

variable {α : Type} [DecidableEq α] {β : α → Type} (f : (a : α) → β a → Nat) (s : AList β)

omit [DecidableEq α] in
def weight : Nat := (s.entries.map fun e => f e.1 e.2).sum

variable {f s}

theorem weight_erase {a : α} {b : β a} (h : s.lookup a = some b) :
    weight f (s.erase a) + f a b = weight f s := by
  have hmem : a ∈ s.entries.keys := AList.lookup_isSome.1 (by rw [h]; rfl)
  obtain ⟨b', l₁, l₂, hnot, hentries, herase⟩ := List.exists_of_kerase hmem
  have hb : b' = b := by
    have hlookup : s.lookup a = some b' := AList.mem_lookup_iff.2 (by rw [hentries]; simp)
    rw [h] at hlookup
    exact (Option.some.inj hlookup).symm
  subst hb
  have hkept : (s.erase a).entries = l₁ ++ l₂ := herase
  simp only [weight, hkept, hentries, List.map_append, List.map_cons, List.sum_append,
    List.sum_cons]
  omega

theorem weight_erase_le (a : α) : weight f (s.erase a) ≤ weight f s := by
  cases h : s.lookup a with
  | some b =>
    have := weight_erase (f := f) h
    omega
  | none =>
    have hnot : a ∉ s.entries.keys := AList.lookup_eq_none.1 h
    have hsame : (s.erase a).entries = s.entries := List.kerase_of_notMem_keys hnot
    exact le_of_eq (by simp only [weight, hsame])

/-- What weighs nothing is not missed. -/
theorem weight_erase_of_zero {a : α} (h : ∀ b, f a b = 0) :
    weight f (s.erase a) = weight f s := by
  cases ha : s.lookup a with
  | some b =>
    have := weight_erase (f := f) ha
    rw [h b] at this
    exact this
  | none =>
    have hnot : a ∉ s.entries.keys := AList.lookup_eq_none.1 ha
    have hsame : (s.erase a).entries = s.entries := List.kerase_of_notMem_keys hnot
    simp only [weight, hsame]

theorem weight_insert (a : α) (b : β a) :
    weight f (s.insert a b) = f a b + weight f (s.erase a) := by
  simp only [weight, AList.entries_insert, List.map_cons, List.sum_cons]
  rfl

theorem weight_insert_of_zero {a : α} (h : ∀ b, f a b = 0) (b : β a) :
    weight f (s.insert a b) = weight f s := by
  rw [weight_insert, h b, Nat.zero_add, weight_erase_of_zero h]

end Weight
end Mowgli
