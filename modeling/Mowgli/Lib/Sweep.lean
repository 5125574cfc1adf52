import Mathlib.Data.List.Count
import Mathlib.Logic.Relation
import Mathlib.Order.Monotone.Defs

/-!
# Sweep — equations solved by passes over their unknowns

Every unknown has an equation that gives it from the others. A sweep goes through a list of
unknowns and replaces each by what its equation gives at that moment. Where the equations are
monotone, sweeps from below only rise; where they are ranked, every sweep settles one rank more,
and there is one solution.
-/

namespace Mowgli
namespace Sweep

variable {K V : Type} [DecidableEq K] (eval : K → (K → V) → V)

def sweep : List K → (K → V) → K → V
  | [], ρ => ρ
  | k :: ks, ρ => sweep ks (Function.update ρ k (eval k ρ))

/-- All equations hold. -/
def Solves (ρ : K → V) : Prop := ∀ k, ρ k = eval k ρ

variable {eval}

/-- What is not swept stays as it is. -/
theorem sweep_other {ks : List K} {k : K} (hk : k ∉ ks) (ρ : K → V) : sweep eval ks ρ k = ρ k := by
  induction ks generalizing ρ with
  | nil => rfl
  | cons j ks ih =>
    obtain ⟨hkj, hks⟩ := not_or.1 (fun h => hk (List.mem_cons.2 h))
    exact (ih hks _).trans (Function.update_of_ne hkj _ _)

variable {ks : List K}

/-- What is swept has the value its equation had at some moment. -/
theorem sweep_mem {k : K} (hk : k ∈ ks) {P : V → Prop} (h : ∀ ρ, P (eval k ρ)) (ρ : K → V) :
    P (sweep eval ks ρ k) := by
  have hkept : ∀ (ks : List K) (ρ : K → V), P (ρ k) → P (sweep eval ks ρ k) := by
    intro ks
    induction ks with
    | nil => exact fun ρ hρ => hρ
    | cons j ks ih =>
      intro ρ hρ
      refine ih _ ?_
      by_cases hjk : k = j
      · subst hjk
        rw [Function.update_self]
        exact h ρ
      · rw [Function.update_of_ne hjk]
        exact hρ
  induction ks generalizing ρ with
  | nil => cases hk
  | cons j ks ih =>
    obtain rfl | hk := List.mem_cons.1 hk
    · refine hkept ks _ ?_
      rw [Function.update_self]
      exact h ρ
    · exact ih hk _

section Order

variable [PartialOrder V]

/-- No equation takes anything back. -/
def Rising (eval : K → (K → V) → V) (ρ : K → V) : Prop := ∀ k, ρ k ≤ eval k ρ

variable {ρ : K → V}

theorem le_update (h : Rising eval ρ) (k : K) : ρ ≤ Function.update ρ k (eval k ρ) := by
  intro j
  by_cases hj : j = k
  · subst hj
    rw [Function.update_self]
    exact h j
  · rw [Function.update_of_ne hj]

theorem Rising.update (hmono : ∀ k, Monotone (eval k)) (h : Rising eval ρ) (k : K) :
    Rising eval (Function.update ρ k (eval k ρ)) := by
  intro j
  have hrise := hmono j (le_update h k)
  by_cases hj : j = k
  · subst hj
    rw [Function.update_self]
    exact hrise
  · rw [Function.update_of_ne hj]
    exact le_trans (h j) hrise

theorem Rising.sweep (hmono : ∀ k, Monotone (eval k)) (h : Rising eval ρ) (ks : List K) :
    Rising eval (sweep eval ks ρ) := by
  induction ks generalizing ρ with
  | nil => exact h
  | cons k ks ih => exact ih (h.update hmono k)

theorem Rising.le_sweep (hmono : ∀ k, Monotone (eval k)) (h : Rising eval ρ) (ks : List K) :
    ρ ≤ Sweep.sweep eval ks ρ := by
  induction ks generalizing ρ with
  | nil => exact le_refl ρ
  | cons k ks ih => exact le_trans (le_update h k) (ih (h.update hmono k))

/-- A rising sweep that changes nothing finds every equation held. -/
theorem Rising.solved (hmono : ∀ k, Monotone (eval k)) (h : Rising eval ρ)
    (hsame : Sweep.sweep eval ks ρ = ρ) : ∀ k ∈ ks, ρ k = eval k ρ := by
  induction ks with
  | nil => exact fun k hk => nomatch hk
  | cons j ks ih =>
    have hrest : Function.update ρ j (eval j ρ) ≤ ρ :=
      le_of_le_of_eq ((h.update hmono j).le_sweep hmono ks) hsame
    have hheld : Function.update ρ j (eval j ρ) = ρ := le_antisymm hrest (le_update h j)
    intro k hk
    obtain rfl | hk := List.mem_cons.1 hk
    · exact (congrFun hheld k).symm.trans (Function.update_self ..)
    · refine ih ?_ k hk
      rw [← hheld]
      exact hsame.trans hheld.symm

end Order

/-! ## Ranks -/

/-- An equation looks only at unknowns of a lower rank. -/
def Ranked (eval : K → (K → V) → V) (rank : K → Nat) : Prop :=
  ∀ k ρ ρ', (∀ j, rank j < rank k → ρ j = ρ' j) → eval k ρ = eval k ρ'

variable {rank : K → Nat}

/-- The equations below a rank, and those of this rank that held or were swept, hold after a
sweep. -/
theorem Ranked.sweep (hranked : Ranked eval rank) {p : Nat} {ρ : K → V}
    (hsettled : ∀ j, rank j < p → ρ j = eval j ρ) {j : K} (hrank : rank j ≤ p)
    (hj : j ∈ ks ∨ ρ j = eval j ρ) : sweep eval ks ρ j = eval j (sweep eval ks ρ) := by
  induction ks generalizing ρ with
  | nil =>
    obtain hmem | hholds := hj
    · cases hmem
    · exact hholds
  | cons k ks ih =>
    -- what changes is of rank `p` at least, so that no equation up to `p` sees it
    have hsame : ∀ i, rank i ≤ p →
        eval i (Function.update ρ k (eval k ρ)) = eval i ρ := by
      intro i hi
      refine hranked i _ _ fun l hl => ?_
      by_cases hlk : l = k
      · subst hlk
        rw [Function.update_self]
        exact (hsettled l (by omega)).symm
      · rw [Function.update_of_ne hlk]
    have hholds : ∀ i, rank i ≤ p → (i = k ∨ ρ i = eval i ρ) →
        Function.update ρ k (eval k ρ) i = eval i (Function.update ρ k (eval k ρ)) := by
      intro i hi hor
      rw [hsame i hi]
      by_cases hik : i = k
      · subst hik
        rw [Function.update_self]
      · rw [Function.update_of_ne hik]
        exact hor.resolve_left hik
    refine ih (fun i hi => hholds i (Nat.le_of_lt hi) (Or.inr (hsettled i hi))) ?_
    obtain hmem | hj := hj
    · obtain heq | hmem := List.mem_cons.1 hmem
      · exact Or.inr (hholds j hrank (Or.inl heq))
      · exact Or.inl hmem
    · exact Or.inr (hholds j hrank (Or.inr hj))

omit [DecidableEq K] in
theorem Ranked.unique (hranked : Ranked eval rank) {ρ ρ' : K → V} (h : Solves eval ρ)
    (h' : Solves eval ρ') : ρ = ρ' := by
  have hbelow : ∀ n k, rank k < n → ρ k = ρ' k := by
    intro n
    induction n with
    | zero => exact fun k hk => absurd hk (Nat.not_lt_zero _)
    | succ n ih =>
      intro k hk
      rw [h k, h' k]
      exact hranked k ρ ρ' fun j hj => ih j (by omega)
  exact funext fun k => hbelow (rank k + 1) k (Nat.lt_succ_self _)

/-! ## What has no cycle has ranks -/

section Acyclic

variable {A : Type} {r : A → A → Prop} {as : List A}

open Classical in
/-- How many of a list an element leads to. -/
noncomputable def below (r : A → A → Prop) (as : List A) (a : A) : Nat :=
  as.countP fun b => Relation.TransGen r a b

theorem below_lt {a b : A} (hstep : r a b) (hb : b ∈ as) (hacyclic : ¬Relation.TransGen r b b) :
    below r as b < below r as a := by
  classical
  obtain ⟨front, back, rfl⟩ := List.append_of_mem hb
  have hmono : ∀ l : List A, below r l b ≤ below r l a := by
    intro l
    refine List.countP_mono_left fun c _ hc => ?_
    exact decide_eq_true (Relation.TransGen.head hstep (of_decide_eq_true hc))
  have hfront := hmono front
  have hback := hmono back
  unfold below at hfront hback ⊢
  rw [List.countP_append, List.countP_append, List.countP_cons_of_neg (by simpa using hacyclic),
    List.countP_cons_of_pos (by simpa using Relation.TransGen.single hstep)]
  omega

end Acyclic

end Sweep
end Mowgli
