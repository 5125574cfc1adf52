import Mathlib.Data.Finset.Card
import Mathlib.Data.Fintype.Basic
import Mathlib.Tactic.Ring
import Mathlib.Algebra.Order.Ring.Rat
import Mowgli.Lib.Density

/-!
# Dbscan — clusters of costmap cells

`dbscan` of the obstacle tracker, over the exact arithmetic of an ordered ring. The indices of the
points are labelled; a cluster grows over a list of neighbours **that gets longer while it is gone
through**, which ends because an index is only put in front of its neighbours while unvisited.
-/

namespace Mowgli
namespace Obstacles

inductive Label where
  | unvisited
  | noise
  | cluster (id : Nat)
  deriving DecidableEq

section Code

variable {K : Type} [CommRing K] [LinearOrder K] {n : Nat}
variable (points : Fin n → K × K) (eps : K) (min_pts : Int)

def neighbours_of (idx : Fin n) : List (Fin n) :=
  (List.finRange n).filter fun j =>
    let dx := (points j).1 - (points idx).1
    let dy := (points j).2 - (points idx).2
    dx * dx + dy * dy ≤ eps * eps

def unvisited (labels : Fin n → Label) : Nat :=
  (Finset.univ.filter fun i => labels i = .unvisited).card

omit [CommRing K] [LinearOrder K] in
theorem unvisited_noise {labels : Fin n → Label} {q : Fin n} (hq : labels q = .noise) (id : Nat) :
    unvisited (Function.update labels q (.cluster id)) = unvisited labels := by
  unfold unvisited
  congr 1
  ext i
  by_cases hi : i = q
  · subst hi
    simp [hq]
  · simp [Function.update_of_ne hi]

theorem unvisited_claim {labels : Fin n → Label} {q : Fin n} (hq : labels q = .unvisited) (id : Nat) :
    unvisited (Function.update labels q (.cluster id)) < unvisited labels := by
  refine Finset.card_lt_card (Finset.ssubset_iff_of_subset ?_ |>.2 ⟨q, ?_, ?_⟩)
  · intro i hi
    by_cases hiq : i = q
    · subst hiq
      simp at hi
    · simpa [Function.update_of_ne hiq] using hi
  · simp [hq]
  · simp

/-- The expansion of a cluster, from the neighbour the loop has come to. -/
def expand (id : Nat) (labels : Fin n → Label) : List (Fin n) → Fin n → Label
  | [] => labels
  | q :: nb =>
    if labels q = .noise then expand id (Function.update labels q (.cluster id)) nb
    else if labels q ≠ .unvisited then expand id labels nb
    else
      let q_nb := neighbours_of points eps q
      expand id (Function.update labels q (.cluster id))
        (if min_pts ≤ q_nb.length then nb ++ q_nb else nb)
termination_by nb => (unvisited labels, nb.length)
decreasing_by
  · rw [unvisited_noise ‹labels q = .noise›]
    exact Prod.Lex.right _ (Nat.lt_succ_self _)
  · exact Prod.Lex.right _ (Nat.lt_succ_self _)
  · exact Prod.Lex.left _ _ (unvisited_claim (by simpa using ‹¬labels q ≠ .unvisited›) id)

/-- The labels, and the number of the next cluster. -/
structure Scan (n : Nat) where
  labels : Fin n → Label := fun _ => .unvisited
  cluster_id : Nat := 0

def visit (s : Scan n) (i : Fin n) : Scan n :=
  if s.labels i ≠ .unvisited then s
  else
    let nb := neighbours_of points eps i
    if (nb.length : Int) < min_pts then { s with labels := Function.update s.labels i .noise }
    else
      { labels := expand points eps min_pts s.cluster_id
          (Function.update s.labels i (.cluster s.cluster_id)) nb
        cluster_id := s.cluster_id + 1 }

def scan : Scan n := (List.finRange n).foldl (visit points eps min_pts) {}

/-- What belongs to an index goes to its cluster. -/
def place {α : Type} (f : Fin n → α) (s : Scan n) (result : List (List α)) (i : Fin n) :
    List (List α) :=
  match s.labels i with
  | .cluster id => result.modify id (· ++ [f i])
  | _ => result

def collect {α : Type} (f : Fin n → α) (s : Scan n) : List (List α) :=
  (List.finRange n).foldl (place f s) (List.replicate s.cluster_id [])

end Code

def dbscan {K : Type} [CommRing K] [LinearOrder K] (points : List (K × K)) (eps : K)
    (min_pts : Int) : List (List (K × K)) :=
  collect points.get (scan points.get eps min_pts)

/-!
## What `dbscan` returns

The clusters of occurrences, before they are read as points: cores are in one cluster exactly when
a chain of cores joins them, what is near a core is in the cluster of one, and what is near none is
in no cluster (`DensityClusters`).
-/

open Density

variable {K : Type} [CommRing K] [LinearOrder K] {n : Nat}

/-! ## What is asked for -/

/-- Two occurrences at most `eps` apart. -/
def Within (points : Fin n → K × K) (eps : K) (i j : Fin n) : Prop :=
  ((points i).1 - (points j).1) ^ 2 + ((points i).2 - (points j).2) ^ 2 ≤ eps ^ 2

instance (points : Fin n → K × K) (eps : K) (i j : Fin n) : Decidable (Within points eps i j) :=
  inferInstanceAs (Decidable (_ ≤ _))

/-- At least `min_pts` occurrences, its own included, are within `eps`. -/
def Core (points : Fin n → K × K) (eps : K) (min_pts : Int) (i : Fin n) : Prop :=
  min_pts ≤ (Finset.univ.filter (Within points eps i)).card

structure DensityClusters (points : Fin n → K × K) (eps : K) (min_pts : Int)
    (clusters : List (List (Fin n))) : Prop where
  core : ∀ i, Core points eps min_pts i → ∃! k : Fin clusters.length, i ∈ clusters.get k
  same : ∀ i j, Core points eps min_pts i → Core points eps min_pts j →
    ((∃ c ∈ clusters, i ∈ c ∧ j ∈ c) ↔ Joined (Within points eps) (Core points eps min_pts) i j)
  border : ∀ c ∈ clusters, ∀ i ∈ c, ∃ j ∈ c, Core points eps min_pts j ∧ Within points eps j i
  noise : ∀ i, (∀ c ∈ clusters, i ∉ c) ↔ ∀ j, Core points eps min_pts j → ¬Within points eps j i
  once : clusters.flatten.Nodup

/-! ## The neighbours -/

variable {points : Fin n → K × K} {eps : K} {min_pts : Int} {labels : Fin n → Label}

theorem mem_neighbours_of (i j : Fin n) : j ∈ neighbours_of points eps i ↔ Within points eps i j := by
  have hsq : ((points j).1 - (points i).1) * ((points j).1 - (points i).1) +
        ((points j).2 - (points i).2) * ((points j).2 - (points i).2) =
      ((points i).1 - (points j).1) ^ 2 + ((points i).2 - (points j).2) ^ 2 := by
    ring
  simp only [neighbours_of, List.mem_filter, List.mem_finRange, true_and, decide_eq_true_eq, Within]
  rw [hsq, sq eps]

theorem core_iff (i : Fin n) :
    Core points eps min_pts i ↔ min_pts ≤ (neighbours_of points eps i).length := by
  have hnodup : (neighbours_of points eps i).Nodup := (List.nodup_finRange n).filter _
  have hset : Finset.univ.filter (Within points eps i) = (neighbours_of points eps i).toFinset := by
    ext j
    simp [mem_neighbours_of]
  rw [Core, hset, List.toFinset_card_of_nodup hnodup]

theorem within_symm (i j : Fin n) (h : Within points eps i j) : Within points eps j i := by
  have hsq : ((points j).1 - (points i).1) ^ 2 + ((points j).2 - (points i).2) ^ 2 =
      ((points i).1 - (points j).1) ^ 2 + ((points i).2 - (points j).2) ^ 2 := by
    ring
  rw [Within, hsq]
  exact h

theorem within_self [IsStrictOrderedRing K] (i : Fin n) : Within points eps i i := by
  simp [Within, sq_nonneg]

/-! ## Labels -/

def Label.id? : Label → Option Nat
  | .cluster id => some id
  | _ => none

theorem id?_eq_some {l : Label} {id : Nat} : l.id? = some id ↔ l = .cluster id := by
  cases l <;> simp [Label.id?]

/-- The cluster of an index. -/
def clusterOf (labels : Fin n → Label) (i : Fin n) : Option Nat := (labels i).id?

theorem clusterOf_update (q : Fin n) (id : Nat) :
    clusterOf (Function.update labels q (.cluster id)) =
      Function.update (clusterOf labels) q (some id) :=
  Function.comp_update Label.id? labels q (.cluster id)

/-- No cluster has a number that is still to come, and no noise is a core. -/
structure Labelled (points : Fin n → K × K) (eps : K) (min_pts : Int) (next : Nat)
    (labels : Fin n → Label) : Prop where
  below : ∀ i id, labels i = .cluster id → id < next
  noise : ∀ i, labels i = .noise → ¬Core points eps min_pts i

theorem Labelled.mark {next id : Nat} (h : Labelled points eps min_pts next labels) (hid : id < next)
    (q : Fin n) : Labelled points eps min_pts next (Function.update labels q (.cluster id)) where
  below := by
    intro i id' hi
    by_cases hiq : i = q
    · subst hiq
      rw [Function.update_self, Label.cluster.injEq] at hi
      omega
    · rw [Function.update_of_ne hiq] at hi
      exact h.below i id' hi
  noise := by
    intro i hi
    by_cases hiq : i = q
    · subst hiq
      rw [Function.update_self] at hi
      exact absurd hi (by simp)
    · rw [Function.update_of_ne hiq] at hi
      exact h.noise i hi

theorem Labelled.reject {next : Nat} (h : Labelled points eps min_pts next labels) {q : Fin n}
    (hq : ¬Core points eps min_pts q) :
    Labelled points eps min_pts next (Function.update labels q .noise) where
  below := by
    intro i id hi
    by_cases hiq : i = q
    · subst hiq
      rw [Function.update_self] at hi
      exact absurd hi (by simp)
    · rw [Function.update_of_ne hiq] at hi
      exact h.below i id hi
  noise := by
    intro i hi
    by_cases hiq : i = q
    · rw [hiq]
      exact hq
    · rw [Function.update_of_ne hiq] at hi
      exact h.noise i hi

theorem visited_update {q i : Fin n} {l : Label} (hl : l ≠ .unvisited) (hi : labels i ≠ .unvisited) :
    Function.update labels q l i ≠ .unvisited := by
  by_cases hiq : i = q
  · subst hiq
    rwa [Function.update_self]
  · rwa [Function.update_of_ne hiq]

/-! ## The expansion -/

theorem expand_spec {id : Nat} {nb : List (Fin n)}
    (hgrow : Growing (Within points eps) (Core points eps min_pts) (clusterOf labels) id nb)
    (hlab : Labelled points eps min_pts (id + 1) labels) :
    let done := expand points eps min_pts id labels nb
    Clustered (Within points eps) (Core points eps min_pts) (clusterOf done) ∧
      Labelled points eps min_pts (id + 1) done ∧
      ∀ i, labels i ≠ .unvisited → done i ≠ .unvisited := by
  induction labels, nb using expand.induct points eps min_pts id with
  | case1 labels =>
    rw [expand]
    exact ⟨hgrow.finish, hlab, fun _ h => h⟩
  | case2 labels q nb hnoise ih =>
    rw [expand, if_pos hnoise]
    have hnone : clusterOf labels q = none := by simp [clusterOf, hnoise, Label.id?]
    have hgrow' := hgrow.claim hnone (hlab.noise q hnoise)
    rw [← clusterOf_update] at hgrow'
    obtain ⟨hclus, hdone, hkept⟩ := ih hgrow' (hlab.mark (Nat.lt_succ_self id) q)
    exact ⟨hclus, hdone, fun i hi => hkept i (visited_update (by simp) hi)⟩
  | case3 labels q nb hnoise hseen ih =>
    rw [expand, if_neg hnoise, if_pos hseen]
    obtain ⟨id', hid'⟩ : ∃ id', labels q = .cluster id' := by
      cases hl : labels q with
      | unvisited => exact absurd hl hseen
      | noise => exact absurd hl hnoise
      | cluster id' => exact ⟨id', rfl⟩
    exact ih (hgrow.seen within_symm (id?_eq_some.2 hid')) hlab
  | case4 labels q nb hnoise hseen q_nb ih =>
    rw [expand, if_neg hnoise, if_neg hseen]
    have hfree : labels q = .unvisited := by simpa using hseen
    have hnone : clusterOf labels q = none := by simp [clusterOf, hfree, Label.id?]
    have hgrow' : Growing (Within points eps) (Core points eps min_pts)
        (clusterOf (Function.update labels q (.cluster id))) id
        (if min_pts ≤ q_nb.length then nb ++ q_nb else nb) := by
      rw [clusterOf_update]
      by_cases hcore : min_pts ≤ (q_nb.length : Int)
      · rw [if_pos hcore]
        exact hgrow.expand within_symm hnone ((core_iff q).2 hcore) (mem_neighbours_of q)
      · rw [if_neg hcore]
        exact hgrow.claim hnone (mt (core_iff q).1 hcore)
    obtain ⟨hclus, hdone, hkept⟩ := ih hgrow' (hlab.mark (Nat.lt_succ_self id) q)
    exact ⟨hclus, hdone, fun i hi => hkept i (visited_update (by simp) hi)⟩

/-! ## The scan -/

/-- After the indices `seen`. -/
structure Scanned (points : Fin n → K × K) (eps : K) (min_pts : Int) (s : Scan n)
    (seen : List (Fin n)) : Prop where
  clustered : Clustered (Within points eps) (Core points eps min_pts) (clusterOf s.labels)
  labelled : Labelled points eps min_pts s.cluster_id s.labels
  visited : ∀ i ∈ seen, s.labels i ≠ .unvisited

theorem Labelled.mono {next next' : Nat} (h : Labelled points eps min_pts next labels)
    (hle : next ≤ next') : Labelled points eps min_pts next' labels where
  below := fun i id hi => Nat.lt_of_lt_of_le (h.below i id hi) hle
  noise := h.noise

theorem Scanned.visit [IsStrictOrderedRing K] {s : Scan n} {seen : List (Fin n)}
    (h : Scanned points eps min_pts s seen) (i : Fin n) :
    Scanned points eps min_pts (visit points eps min_pts s i) (seen ++ [i]) := by
  unfold Obstacles.visit
  split
  · rename_i hi
    refine ⟨h.clustered, h.labelled, fun j hj => ?_⟩
    rcases List.mem_append.1 hj with hj | hj
    · exact h.visited j hj
    · rw [List.mem_singleton.1 hj]
      exact hi
  · have hfree : s.labels i = .unvisited := by simpa using ‹¬s.labels i ≠ .unvisited›
    have hnone : clusterOf s.labels i = none := by simp [clusterOf, hfree, Label.id?]
    dsimp only
    split
    · rename_i hfew
      have hnot : ¬Core points eps min_pts i := by
        rw [core_iff]
        omega
      refine ⟨?_, h.labelled.reject hnot, ?_⟩
      · have hsame : clusterOf (Function.update s.labels i .noise) = clusterOf s.labels := by
          refine (Function.comp_update Label.id? s.labels i .noise).trans ?_
          exact Function.update_eq_self_iff.2 hnone.symm
        rw [hsame]
        exact h.clustered
      · intro j hj
        rcases List.mem_append.1 hj with hj | hj
        · exact visited_update (by simp) (h.visited j hj)
        · rw [List.mem_singleton.1 hj]
          simp
    · rename_i hmany
      have hcore : Core points eps min_pts i := by
        rw [core_iff]
        omega
      have hfresh : ∀ j, clusterOf s.labels j ≠ some s.cluster_id := by
        intro j hj
        exact absurd (h.labelled.below j _ (id?_eq_some.1 hj)) (Nat.lt_irrefl _)
      have hgrow := h.clustered.begin hcore hnone (within_self i) hfresh (mem_neighbours_of i)
      rw [← clusterOf_update] at hgrow
      have hlab := (h.labelled.mono (Nat.le_succ _)).mark (Nat.lt_succ_self s.cluster_id) i
      obtain ⟨hclus, hdone, hkept⟩ := expand_spec hgrow hlab
      refine ⟨hclus, hdone, fun j hj => hkept j ?_⟩
      rcases List.mem_append.1 hj with hj | hj
      · exact visited_update (by simp) (h.visited j hj)
      · rw [List.mem_singleton.1 hj, Function.update_self]
        simp

theorem Scanned.run [IsStrictOrderedRing K] {s : Scan n} {seen : List (Fin n)}
    (h : Scanned points eps min_pts s seen) (rest : List (Fin n)) :
    Scanned points eps min_pts (rest.foldl (Obstacles.visit points eps min_pts) s)
      (seen ++ rest) := by
  induction rest generalizing s seen with
  | nil => simpa using h
  | cons i rest ih => simpa using ih (h.visit i)

theorem scanned_start : Scanned points eps min_pts ({} : Scan n) [] where
  clustered := Clustered.empty
  labelled := ⟨fun _ _ h => absurd h (by simp), fun _ h => absurd h (by simp)⟩
  visited := by simp

theorem scanned_all [IsStrictOrderedRing K] (points : Fin n → K × K) (eps : K) (min_pts : Int) :
    Scanned points eps min_pts (scan points eps min_pts) (List.finRange n) :=
  scanned_start.run _

/-- Every core is in a cluster. -/
theorem core_clustered [IsStrictOrderedRing K] (i : Fin n) (hi : Core points eps min_pts i) :
    ∃ k, clusterOf (scan points eps min_pts).labels i = some k := by
  have h := scanned_all points eps min_pts
  cases hl : (scan points eps min_pts).labels i with
  | unvisited => exact absurd hl (h.visited i (List.mem_finRange i))
  | noise => exact absurd hi (h.labelled.noise i hl)
  | cluster k => exact ⟨k, by simp [clusterOf, hl, Label.id?]⟩

/-! ## The clusters -/

/-- Which of some occurrences are labelled `k`. -/
def labelledIn (labels : Fin n → Label) (among : List (Fin n)) (k : Nat) : List (Fin n) :=
  among.filter fun i => labels i = .cluster k

def members (labels : Fin n → Label) (k : Nat) : List (Fin n) :=
  labelledIn labels (List.finRange n) k

theorem place_eq {α : Type} (f : Fin n → α) (s : Scan n) (next : Nat) (g : Nat → List α) (i : Fin n) :
    place f s ((List.range next).map g) i =
      (List.range next).map fun k => g k ++ (labelledIn s.labels [i] k).map f := by
  unfold place labelledIn
  cases hl : s.labels i with
  | unvisited => simp [hl]
  | noise => simp [hl]
  | cluster id =>
    refine List.ext_getElem (by simp) fun k h₁ h₂ => ?_
    by_cases hid : id = k
    · subst hid
      simp [hl]
    · simp [hl, hid]

/-- The loop over the labels, read cluster by cluster. -/
theorem collect_eq {α : Type} (f : Fin n → α) (s : Scan n) :
    collect f s = (List.range s.cluster_id).map fun k => (members s.labels k).map f := by
  have hloop : ∀ (rest : List (Fin n)) (g : Nat → List α),
      rest.foldl (place f s) ((List.range s.cluster_id).map g) =
        (List.range s.cluster_id).map fun k => g k ++ (labelledIn s.labels rest k).map f := by
    intro rest
    induction rest with
    | nil => simp [labelledIn]
    | cons i rest ih =>
      intro g
      rw [List.foldl_cons, place_eq, ih]
      refine List.map_congr_left fun k _ => ?_
      rw [List.append_assoc, ← List.map_append, labelledIn, labelledIn, ← List.filter_append]
      rfl
  have hstart : List.replicate s.cluster_id ([] : List α) =
      (List.range s.cluster_id).map fun _ => [] := by
    simp [List.map_const']
  rw [collect, hstart, hloop]
  rfl

theorem mem_members {k : Nat} {i : Fin n} :
    i ∈ members labels k ↔ clusterOf labels i = some k := by
  simp [members, labelledIn, clusterOf, id?_eq_some]

theorem nodup_members (labels : Fin n → Label) (next : Nat) :
    ((List.range next).map (members labels)).flatten.Nodup := by
  rw [List.nodup_flatten]
  constructor
  · intro c hc
    obtain ⟨k, -, rfl⟩ := List.mem_map.1 hc
    exact (List.nodup_finRange n).filter _
  · rw [List.pairwise_map]
    refine List.nodup_range.imp fun {a b} hab => ?_
    intro i hi hi'
    rw [mem_members] at hi hi'
    rw [hi] at hi'
    exact hab (Option.some.inj hi')

theorem scan_clusters [IsStrictOrderedRing K] (points : Fin n → K × K) (eps : K) (min_pts : Int) :
    DensityClusters points eps min_pts
      ((List.range (scan points eps min_pts).cluster_id).map
        (members (scan points eps min_pts).labels)) := by
  have h := scanned_all points eps min_pts
  have hall : ∀ i, Core points eps min_pts i →
      ∃ k, clusterOf (scan points eps min_pts).labels i = some k := core_clustered
  obtain ⟨s, hs⟩ : ∃ s, scan points eps min_pts = s := ⟨_, rfl⟩
  rw [hs] at h hall ⊢
  have hbelow : ∀ i k, clusterOf s.labels i = some k → k < s.cluster_id :=
    fun i k hk => h.labelled.below i k (id?_eq_some.1 hk)
  have hmem : ∀ i k, clusterOf s.labels i = some k →
      members s.labels k ∈ (List.range s.cluster_id).map (members s.labels) :=
    fun i k hk => List.mem_map.2 ⟨k, List.mem_range.2 (hbelow i k hk), rfl⟩
  constructor
  case core =>
    intro i hi
    obtain ⟨k, hk⟩ := hall i hi
    refine ⟨⟨k, by simpa using hbelow i k hk⟩, by simpa [mem_members] using hk, ?_⟩
    intro k' hk'
    simp only [List.get_eq_getElem, List.getElem_map, List.getElem_range, mem_members] at hk'
    rw [hk] at hk'
    exact Fin.ext (Option.some.inj hk').symm
  case same =>
    intro i j hi hj
    rw [← h.clustered.same_iff hall hi hj]
    constructor
    · rintro ⟨c, hc, hic, hjc⟩
      obtain ⟨k, -, rfl⟩ := List.mem_map.1 hc
      exact ⟨k, mem_members.1 hic, mem_members.1 hjc⟩
    · rintro ⟨k, hki, hkj⟩
      exact ⟨_, hmem i k hki, mem_members.2 hki, mem_members.2 hkj⟩
  case border =>
    intro c hc i hi
    obtain ⟨k, -, rfl⟩ := List.mem_map.1 hc
    obtain ⟨j, hj, hkj, hji⟩ := h.clustered.reached i k (mem_members.1 hi)
    exact ⟨j, mem_members.2 hkj, hj, hji⟩
  case noise =>
    intro i
    rw [← h.clustered.none_iff hall i]
    constructor
    · intro hno
      cases hk : clusterOf s.labels i with
      | none => rfl
      | some k => exact absurd (mem_members.2 hk) (hno _ (hmem i k hk))
    · intro hnone c hc hi
      obtain ⟨k, -, rfl⟩ := List.mem_map.1 hc
      rw [mem_members.1 hi] at hnone
      exact absurd hnone (by simp)
  case once => exact nodup_members s.labels s.cluster_id

/-- `dbscan` returns the points of density clusters. -/
theorem dbscan_clusters [IsStrictOrderedRing K] (points : List (K × K)) (eps : K) (min_pts : Int) :
    ∃ clusters : List (List (Fin points.length)),
      dbscan points eps min_pts = clusters.map (fun c => c.map points.get) ∧
        DensityClusters points.get eps min_pts clusters := by
  refine ⟨_, ?_, scan_clusters points.get eps min_pts⟩
  rw [dbscan, collect_eq, List.map_map]
  rfl

theorem dbscan_clusters_line :
    let points : List (ℚ × ℚ) := [(0, 0), (1, 0), (5, 0)]
    ∃ clusters : List (List (Fin points.length)),
      dbscan points 1 2 = clusters.map (fun c => c.map points.get) ∧
        DensityClusters points.get 1 2 clusters :=
  dbscan_clusters _ _ _

end Obstacles
end Mowgli
