import Mathlib.Logic.Relation
import Mathlib.Logic.Function.Basic

/-!
# Density — clusters grown from cores

Things are `near` one another, and some of them are cores. A cluster is grown from a core over
whatever is near its cores; what is near and is no core joins the cluster but does not grow it, and
may be near the cores of several. `Growing` is what holds while one cluster grows and a worklist of
things near its cores is left: **a core's neighbours are claimed or on the list**. Without a list
it is `Clustered`, which says of every core where its neighbours are.
-/

namespace Mowgli
namespace Density

variable {ι κ : Type} (near : ι → ι → Prop) (core : ι → Prop)

/-- A chain of cores, each near the next. -/
def Joined : ι → ι → Prop := Relation.ReflTransGen fun i j => core i ∧ core j ∧ near i j

/-- The clusters, of which `k` grows over what is on the list. -/
structure Growing (label : ι → Option κ) (k : κ) (work : List ι) : Prop where
  closed : ∀ i j k', core i → near i j → label i = some k' →
    (∃ k'', label j = some k'' ∧ (core j → k'' = k')) ∨ (k' = k ∧ j ∈ work)
  reached : ∀ i k', label i = some k' → ∃ j, core j ∧ label j = some k' ∧ near j i
  joined : ∀ i j k', core i → core j → label i = some k' → label j = some k' → Joined near core i j
  pending : ∀ j ∈ work, ∃ i, core i ∧ label i = some k ∧ near i j

structure Clustered (label : ι → Option κ) : Prop where
  closed : ∀ i j k, core i → near i j → label i = some k →
    ∃ k', label j = some k' ∧ (core j → k' = k)
  reached : ∀ i k, label i = some k → ∃ j, core j ∧ label j = some k ∧ near j i
  joined : ∀ i j k, core i → core j → label i = some k → label j = some k → Joined near core i j

variable {near core} {label : ι → Option κ} {k : κ} {work : List ι}

theorem Joined.symm (hsymm : ∀ i j, near i j → near j i) {i j : ι} (h : Joined near core i j) :
    Joined near core j i := by
  induction h with
  | refl => exact .refl
  | tail _ hstep ih => exact .head ⟨hstep.2.1, hstep.1, hsymm _ _ hstep.2.2⟩ ih

theorem Clustered.empty : Clustered near core (fun _ => (none : Option κ)) where
  closed := fun _ _ _ _ _ h => absurd h (by simp)
  reached := fun _ _ h => absurd h (by simp)
  joined := fun _ _ _ _ _ h => absurd h (by simp)

theorem Growing.finish (h : Growing near core label k []) : Clustered near core label where
  closed := by
    intro i j k' hi hij hk
    rcases h.closed i j k' hi hij hk with hj | ⟨_, hno⟩
    · exact hj
    · exact absurd hno (by simp)
  reached := h.reached
  joined := h.joined

/-! ## Steps -/

variable {q : ι}

/-- What is in a cluster already is left where it is; a core is then in this one. -/
theorem Growing.seen (hsymm : ∀ i j, near i j → near j i)
    (h : Growing near core label k (q :: work)) {k' : κ} (hq : label q = some k') :
    Growing near core label k work where
  closed := by
    intro i j k₁ hi hij hk
    rcases h.closed i j k₁ hi hij hk with hj | ⟨rfl, hmem⟩
    · exact .inl hj
    · rcases List.mem_cons.1 hmem with rfl | hmem
      · left
        refine ⟨k', hq, fun hcore => ?_⟩
        rcases h.closed j i k' hcore (hsymm _ _ hij) hq with ⟨k₂, hki, hsame⟩ | ⟨he, _⟩
        · rw [hk] at hki
          exact (hsame hi).symm.trans (Option.some.inj hki).symm
        · exact he
      · exact .inr ⟨rfl, hmem⟩
  reached := h.reached
  joined := h.joined
  pending := fun j hj => h.pending j (List.mem_cons_of_mem q hj)

theorem ne_of_core {i : ι} (hi : core i) (hq : ¬core q) : i ≠ q := by
  rintro rfl
  exact hq hi

section Steps

variable [DecidableEq ι]

theorem update_self (q : ι) : Function.update label q (some k) q = some k :=
  Function.update_self q (some k) label

theorem update_other {i q : ι} (h : i ≠ q) : Function.update label q (some k) i = label i :=
  Function.update_of_ne h (some k) label

/-- What has a label keeps it. -/
theorem update_kept {i q : ι} {k' : κ} (hq : label q = none) (h : label i = some k') :
    Function.update label q (some k) i = some k' := by
  have hne : i ≠ q := by
    rintro rfl
    rw [hq] at h
    exact absurd h (by simp)
  rw [update_other hne, h]

/-- A core without a cluster begins one, with all that is near it on the list. -/
theorem Clustered.begin (h : Clustered near core label) {s : ι} (hs : core s) (hnone : label s = none)
    (hself : near s s) (hfresh : ∀ i, label i ≠ some k) (hwork : ∀ j, j ∈ work ↔ near s j) :
    Growing near core (Function.update label s (some k)) k work where
  closed := by
    intro i j k' hi hij hk
    by_cases his : i = s
    · subst his
      rw [update_self] at hk
      right
      exact ⟨(Option.some.inj hk).symm, (hwork j).2 hij⟩
    · rw [update_other his] at hk
      obtain ⟨k'', hj, hcore⟩ := h.closed i j k' hi hij hk
      left
      exact ⟨k'', update_kept hnone hj, hcore⟩
  reached := by
    intro i k' hk
    by_cases his : i = s
    · subst his
      exact ⟨i, hs, hk, hself⟩
    · rw [update_other his] at hk
      obtain ⟨j, hj, hkj, hnear⟩ := h.reached i k' hk
      exact ⟨j, hj, update_kept hnone hkj, hnear⟩
  joined := by
    intro i j k' hi hj hki hkj
    by_cases his : i = s
    · by_cases hjs : j = s
      · subst his hjs
        exact .refl
      · subst his
        rw [update_self] at hki
        rw [update_other hjs, ← Option.some.inj hki] at hkj
        exact absurd hkj (hfresh j)
    · rw [update_other his] at hki
      by_cases hjs : j = s
      · subst hjs
        rw [update_self] at hkj
        rw [← Option.some.inj hkj] at hki
        exact absurd hki (hfresh i)
      · rw [update_other hjs] at hkj
        exact h.joined i j k' hi hj hki hkj
  pending := by
    intro j hj
    exact ⟨s, hs, update_self s, (hwork j).1 hj⟩

/-- What comes off the list is near a core of the cluster it joins. -/
theorem Growing.reached_update (h : Growing near core label k (q :: work)) (hnone : label q = none)
    (i : ι) (k' : κ) (hk : Function.update label q (some k) i = some k') :
    ∃ j, core j ∧ Function.update label q (some k) j = some k' ∧ near j i := by
  by_cases hiq : i = q
  · subst hiq
    rw [update_self] at hk
    obtain ⟨p, hp, hkp, hnear⟩ := h.pending i (by simp)
    refine ⟨p, hp, ?_, hnear⟩
    rw [← hk]
    exact update_kept hnone hkp
  · rw [update_other hiq] at hk
    obtain ⟨j, hj, hkj, hnear⟩ := h.reached i k' hk
    exact ⟨j, hj, update_kept hnone hkj, hnear⟩

/-- What is left on the list is still near a core of the cluster. -/
theorem Growing.pending_update (h : Growing near core label k (q :: work)) (hnone : label q = none)
    (j : ι) (hj : j ∈ work) :
    ∃ i, core i ∧ Function.update label q (some k) i = some k ∧ near i j := by
  obtain ⟨p, hp, hkp, hnear⟩ := h.pending j (List.mem_cons_of_mem q hj)
  exact ⟨p, hp, update_kept hnone hkp, hnear⟩

/-- What is no core joins the cluster. -/
theorem Growing.claim (h : Growing near core label k (q :: work)) (hnone : label q = none)
    (hcore : ¬core q) : Growing near core (Function.update label q (some k)) k work where
  closed := by
    intro i j k' hi hij hk
    rw [update_other (ne_of_core hi hcore)] at hk
    by_cases hjq : j = q
    · subst hjq
      left
      exact ⟨k, update_self j, fun hj => absurd hj hcore⟩
    · rcases h.closed i j k' hi hij hk with ⟨k'', hj, hsame⟩ | ⟨he, hmem⟩
      · left
        exact ⟨k'', update_kept hnone hj, hsame⟩
      · right
        exact ⟨he, (List.mem_cons.1 hmem).resolve_left hjq⟩
  reached := h.reached_update hnone
  joined := by
    intro i j k' hi hj hki hkj
    rw [update_other (ne_of_core hi hcore)] at hki
    rw [update_other (ne_of_core hj hcore)] at hkj
    exact h.joined i j k' hi hj hki hkj
  pending := h.pending_update hnone

/-- A core joins the cluster, and what is near it goes on the list. -/
theorem Growing.expand (hsymm : ∀ i j, near i j → near j i)
    (h : Growing near core label k (q :: work)) (hnone : label q = none) (hcore : core q)
    {more : List ι} (hmore : ∀ j, j ∈ more ↔ near q j) :
    Growing near core (Function.update label q (some k)) k (work ++ more) where
  closed := by
    intro i j k' hi hij hk
    by_cases hiq : i = q
    · subst hiq
      rw [update_self] at hk
      right
      exact ⟨(Option.some.inj hk).symm, List.mem_append_right _ ((hmore j).2 hij)⟩
    · rw [update_other hiq] at hk
      rcases h.closed i j k' hi hij hk with ⟨k'', hj, hsame⟩ | ⟨he, hmem⟩
      · left
        exact ⟨k'', update_kept hnone hj, hsame⟩
      · rcases List.mem_cons.1 hmem with rfl | hmem
        · left
          exact ⟨k, update_self j, fun _ => he.symm⟩
        · right
          exact ⟨he, List.mem_append_left _ hmem⟩
  reached := h.reached_update hnone
  joined := by
    obtain ⟨p, hp, hkp, hnear⟩ := h.pending q (by simp)
    -- Every core of the cluster was joined to the one that put `q` on the list.
    have hall : ∀ i, i ≠ q → core i → label i = some k → Joined near core i q := by
      intro i _ hi hki
      exact (h.joined i p k hi hp hki hkp).tail ⟨hp, hcore, hnear⟩
    intro i j k' hi hj hki hkj
    by_cases hiq : i = q
    · by_cases hjq : j = q
      · subst hiq hjq
        exact .refl
      · subst hiq
        rw [update_self] at hki
        rw [update_other hjq, ← Option.some.inj hki] at hkj
        exact (hall j hjq hj hkj).symm hsymm
    · rw [update_other hiq] at hki
      by_cases hjq : j = q
      · subst hjq
        rw [update_self] at hkj
        rw [← Option.some.inj hkj] at hki
        exact hall i hiq hi hki
      · rw [update_other hjq] at hkj
        exact h.joined i j k' hi hj hki hkj
  pending := by
    intro j hj
    rcases List.mem_append.1 hj with hj | hj
    · exact h.pending_update hnone j hj
    · exact ⟨q, hcore, update_self q, (hmore j).1 hj⟩

end Steps

/-! ## Every core in a cluster -/

/-- Cores are in one cluster exactly when a chain of cores joins them. -/
theorem Clustered.same_iff (h : Clustered near core label) (hall : ∀ i, core i → ∃ k, label i = some k)
    {i j : ι} (hi : core i) (hj : core j) :
    (∃ k, label i = some k ∧ label j = some k) ↔ Joined near core i j := by
  constructor
  · rintro ⟨k, hki, hkj⟩
    exact h.joined i j k hi hj hki hkj
  · intro hchain
    obtain ⟨k, hk⟩ := hall i hi
    refine ⟨k, hk, ?_⟩
    clear hj
    induction hchain with
    | refl => exact hk
    | tail _ hstep ih =>
      obtain ⟨k', hk', hsame⟩ := h.closed _ _ k hstep.1 hstep.2.2 ih
      rw [hk', hsame hstep.2.1]

/-- What is in no cluster is what is near no core. -/
theorem Clustered.none_iff (h : Clustered near core label) (hall : ∀ i, core i → ∃ k, label i = some k)
    (i : ι) : label i = none ↔ ∀ j, core j → ¬near j i := by
  constructor
  · intro hnone j hj hji
    obtain ⟨k, hk⟩ := hall j hj
    obtain ⟨k', hk', -⟩ := h.closed j i k hj hji hk
    rw [hnone] at hk'
    exact absurd hk' (by simp)
  · intro hno
    cases hi : label i with
    | none => rfl
    | some k =>
      obtain ⟨j, hj, -, hji⟩ := h.reached i k hi
      exact absurd hji (hno j hj)

end Density
end Mowgli
