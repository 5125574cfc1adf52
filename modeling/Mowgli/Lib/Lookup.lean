import Mathlib.Data.List.Basic

/-!
# Lookup — the last value of a key

An association list where a later entry overrides an earlier one. A list in parts is looked up
part by part, and a list made index by index only in the part of its own index.
-/

namespace Mowgli
namespace Lookup

variable {K V : Type}

/-- The last value of a key. -/
def last [DecidableEq K] (k : K) : List (K × V) → Option V
  | [] => none
  | entry :: rest => (last k rest).or (if entry.1 = k then some entry.2 else none)

/-- The entries of a list, index by index. -/
def indexed {α : Type} (entries : Nat → α → List (K × V)) (i : Nat) : List α → List (K × V)
  | [] => []
  | a :: as => entries i a ++ indexed entries (i + 1) as

theorem mem_indexed {α : Type} {entries : Nat → α → List (K × V)} {i : Nat} {as : List α}
    {entry : K × V} (h : entry ∈ indexed entries i as) :
    ∃ n a, i ≤ n ∧ a ∈ as ∧ entry ∈ entries n a := by
  induction as generalizing i with
  | nil => cases h
  | cons a as ih =>
    rcases List.mem_append.1 h with h | h
    · exact ⟨i, a, Nat.le_refl i, List.mem_cons_self, h⟩
    · obtain ⟨n, b, hn, hb, hmem⟩ := ih h
      exact ⟨n, b, Nat.le_of_succ_le hn, List.mem_cons_of_mem a hb, hmem⟩

section

variable [DecidableEq K]

@[simp] theorem last_nil (k : K) : last k ([] : List (K × V)) = none := rfl

@[simp] theorem last_cons (k : K) (entry : K × V) (rest : List (K × V)) :
    last k (entry :: rest) = (last k rest).or (if entry.1 = k then some entry.2 else none) := rfl

@[simp] theorem last_append (k : K) (xs ys : List (K × V)) :
    last k (xs ++ ys) = (last k ys).or (last k xs) := by
  induction xs with
  | nil => simp
  | cons x xs ih => rw [List.cons_append, last_cons, ih, last_cons, Option.or_assoc]

/-- No entry has the key. -/
theorem last_eq_none {k : K} {xs : List (K × V)} (h : ∀ entry ∈ xs, entry.1 ≠ k) :
    last k xs = none := by
  induction xs with
  | nil => rfl
  | cons x xs ih =>
    rw [last_cons, ih fun entry he => h entry (List.mem_cons_of_mem x he),
      if_neg (h x List.mem_cons_self)]
    rfl

/-- Keys under another name, values through a function. -/
theorem last_map {L W : Type} [DecidableEq L] {name : K → L} (hname : Function.Injective name)
    (f : V → W) (k : K) (xs : List (K × V)) :
    last (name k) (xs.map fun entry => (name entry.1, f entry.2)) = (last k xs).map f := by
  induction xs with
  | nil => rfl
  | cons x xs ih =>
    rw [List.map_cons, last_cons, ih, last_cons]
    by_cases hk : x.1 = k
    · rw [if_pos hk, if_pos (congrArg name hk)]
      cases last k xs <;> rfl
    · rw [if_neg hk, if_neg fun h => hk (hname h)]
      cases last k xs <;> rfl

/-- Where `owner` says which index a key belongs to, a key is looked up in its own part. -/
theorem last_indexed {α : Type} {entries : Nat → α → List (K × V)} {owner : K → Option Nat}
    (howner : ∀ n a, ∀ entry ∈ entries n a, owner entry.1 = some n) {k : K} {n : Nat}
    (hk : owner k = some n) (i : Nat) (as : List α) (hi : i ≤ n) :
    last k (indexed entries i as) = (as[n - i]?).bind fun a => last k (entries n a) := by
  induction as generalizing i with
  | nil => rfl
  | cons a as ih =>
    show last k (entries i a ++ indexed entries (i + 1) as) = _
    rw [last_append]
    by_cases h : i = n
    · subst h
      have hrest : last k (indexed entries (i + 1) as) = none := by
        refine last_eq_none ?_
        intro entry he heq
        obtain ⟨m, b, hm, -, hmem⟩ := mem_indexed he
        have hmi := howner m b entry hmem
        rw [heq, hk] at hmi
        cases hmi
        exact Nat.not_succ_le_self i hm
      rw [hrest, Nat.sub_self]
      rfl
    · have hlt : i < n := Nat.lt_of_le_of_ne hi h
      have hfirst : last k (entries i a) = none := by
        refine last_eq_none ?_
        intro entry he heq
        have hmi := howner i a entry he
        rw [heq, hk] at hmi
        cases hmi
        exact h rfl
      rw [hfirst, ih (i + 1) hlt, Option.or_none]
      obtain ⟨j, hj⟩ : ∃ j, n - i = j + 1 := ⟨n - i - 1, by omega⟩
      rw [hj, show n - (i + 1) = j by omega]
      rfl

/-- A key of no index is in no part. -/
theorem last_indexed_none {α : Type} {entries : Nat → α → List (K × V)} {k : K}
    (h : ∀ n a, ∀ entry ∈ entries n a, entry.1 ≠ k) (i : Nat) (as : List α) :
    last k (indexed entries i as) = none := by
  refine last_eq_none ?_
  intro entry he
  obtain ⟨n, a, -, -, hmem⟩ := mem_indexed he
  exact h n a entry hmem

end

end Lookup
end Mowgli
