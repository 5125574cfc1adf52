import Mathlib.Algebra.BigOperators.Ring.Finset
import Mowgli.Lib.Sides

/-!
# SimpleOutline — which outlines the map importer takes

`openmower_import.go`, over exact arithmetic: an outline is cleaned of repeated vertices
(`dedupOutline`) and is taken when its polygon is simple (`simpleImportOutline`). Only the edges
that are not neighbours are compared with each other.
-/

namespace Mowgli
namespace Gui
namespace Import

section Outline

variable {K : Type} [Field K]

/-- `openMowerPoint`: `X` and `Y`. -/
abbrev Point (K : Type) := K × K

def cross (a b c : Point K) : K := (b.1 - a.1) * (c.2 - a.2) - (b.2 - a.2) * (c.1 - a.1)

/-- `points[i]`, of an index in range. -/
def vertex (points : List (Point K)) (i : Nat) : Point K := points.getD i (0, 0)

variable [LinearOrder K]

def between (a b p : Point K) : Bool :=
  cross a b p = 0 ∧ min a.1 b.1 ≤ p.1 ∧ p.1 ≤ max a.1 b.1 ∧ min a.2 b.2 ≤ p.2 ∧ p.2 ≤ max a.2 b.2

def opposite (x y : K) : Bool := 0 < x ∧ y < 0 ∨ x < 0 ∧ 0 < y

/-- The comparison of the edges `a b` and `c d`. -/
def meets (a b c d : Point K) : Bool :=
  let ac := cross a b c
  let ad := cross a b d
  let ca := cross c d a
  let cb := cross c d b
  (opposite ac ad && opposite ca cb) || between a b c || between a b d || between c d a ||
    between c d b

/-- The inner loop, from `j` on, with `left` indices to go: an edge that meets edge `i`. -/
def meetsLater (points : List (Point K)) (i : Nat) : Nat → Nat → Bool
  | 0, _ => false
  | left + 1, j =>
    if j = i + 1 ∨ i = 0 ∧ j = points.length - 1 then meetsLater points i left (j + 1)
    else if meets (vertex points i) (vertex points ((i + 1) % points.length)) (vertex points j)
        (vertex points ((j + 1) % points.length)) then true
    else meetsLater points i left (j + 1)

/-- The outer loop, from `i` on. The area is exact, so it is a number. -/
def outlineLoop (points : List (Point K)) : Nat → Nat → K → Bool
  | 0, _, twiceArea => twiceArea ≠ 0
  | left + 1, i, twiceArea =>
    let a := vertex points i
    let b := vertex points ((i + 1) % points.length)
    if a = b then false
    else if meetsLater points i (points.length - (i + 1)) (i + 1) then false
    else outlineLoop points left (i + 1) (twiceArea + cross (vertex points 0) a b)

def simpleImportOutline (points : List (Point K)) : Bool :=
  if points.length < 3 then false else outlineLoop points points.length 0 0

end Outline

section Dedup

variable {α : Type} [DecidableEq α]

def appendVertex (out : List α) (p : α) : List α := if out.getLast? = some p then out else out ++ [p]

/-- The wrap-around duplicates. -/
def dropClosing (out : List α) : List α :=
  if 1 < out.length ∧ out.head? = out.getLast? then dropClosing out.dropLast else out
termination_by out.length
decreasing_by
  rw [List.length_dropLast]
  omega

def dedupOutline (outline : List α) : List α :=
  if outline = [] then outline else dropClosing (outline.foldl appendVertex [])

end Dedup

/-!
## The importer takes exactly the simple outlines

The loops compare the edges that are not neighbours. A fold, where an edge runs back over its
neighbour, is not among these; but **the end of the shorter of the two is on the other, and begins
an edge that is compared with it** (`folds_meet`). In a triangle there is no such edge, and a
folded triangle has no area.
-/

open Segment

variable {K : Type} [Field K] [LinearOrder K]

/-! ## What is asked for -/

/-- A point of the edge from vertex `i` to the next. -/
def OnEdge (points : List (Point K)) (i : Nat) (p : Point K) : Prop :=
  OnSegment (vertex points i) (vertex points ((i + 1) % points.length)) p

/-- Twice the signed area of the polygon. -/
def twiceSignedArea (points : List (Point K)) : K :=
  ∑ i ∈ Finset.range points.length,
    ((vertex points i).1 * (vertex points ((i + 1) % points.length)).2 -
      (vertex points ((i + 1) % points.length)).1 * (vertex points i).2)

structure SimpleOutline (points : List (Point K)) : Prop where
  vertices : 3 ≤ points.length
  edges : ∀ i < points.length, vertex points i ≠ vertex points ((i + 1) % points.length)
  area : twiceSignedArea points ≠ 0
  apart : ∀ i < points.length, ∀ j < points.length, i ≠ j → j ≠ (i + 1) % points.length →
    i ≠ (j + 1) % points.length → ∀ p, ¬(OnEdge points i p ∧ OnEdge points j p)
  touching : ∀ i < points.length, ∀ p, OnEdge points i p →
    OnEdge points ((i + 1) % points.length) p → p = vertex points ((i + 1) % points.length)

/-! ## The comparison -/

theorem opposite_iff {x y : K} : opposite x y = true ↔ 0 < x ∧ y < 0 ∨ x < 0 ∧ 0 < y := by
  simp [opposite]

variable [IsStrictOrderedRing K]

theorem between_eq (a b p : Point K) : between a b p = true ↔ OnSegment a b p := by
  rw [← between_iff]
  simp only [between, decide_eq_true_eq]
  exact Iff.rfl

theorem meets_iff (a b c d : Point K) :
    meets a b c d = true ↔ ∃ p, OnSegment a b p ∧ OnSegment c d p := by
  rw [segments_meet_iff]
  simp only [meets, Bool.or_eq_true, Bool.and_eq_true, between_eq, opposite_iff, or_assoc]
  exact Iff.rfl

/-! ## The loops -/

/-- The edges `i` and `j` are compared and meet. -/
def Collide (points : List (Point K)) (i j : Nat) : Prop :=
  ¬(j = i + 1 ∨ i = 0 ∧ j = points.length - 1) ∧ ∃ p, OnEdge points i p ∧ OnEdge points j p

theorem meetsLater_iff (points : List (Point K)) (i left j : Nat) :
    meetsLater points i left j = true ↔ ∃ k, j ≤ k ∧ k < j + left ∧ Collide points i k := by
  induction left generalizing j with
  | zero =>
    simp only [meetsLater, Bool.false_eq_true, Nat.add_zero, false_iff]
    rintro ⟨k, hk, hk', -⟩
    omega
  | succ left ih =>
    have hsplit : (∃ k, j ≤ k ∧ k < j + (left + 1) ∧ Collide points i k) ↔
        Collide points i j ∨ ∃ k, j + 1 ≤ k ∧ k < j + 1 + left ∧ Collide points i k := by
      constructor
      · rintro ⟨k, hk, hk', hc⟩
        rcases Nat.eq_or_lt_of_le hk with rfl | hlt
        · exact .inl hc
        · exact .inr ⟨k, hlt, by omega, hc⟩
      · rintro (hc | ⟨k, hk, hk', hc⟩)
        · exact ⟨j, Nat.le_refl j, by omega, hc⟩
        · exact ⟨k, by omega, by omega, hc⟩
    rw [hsplit, meetsLater]
    by_cases hskip : j = i + 1 ∨ i = 0 ∧ j = points.length - 1
    · rw [if_pos hskip, ih]
      constructor
      · exact .inr
      · rintro (hc | hc)
        · exact absurd hskip hc.1
        · exact hc
    · rw [if_neg hskip]
      by_cases hm : meets (vertex points i) (vertex points ((i + 1) % points.length))
          (vertex points j) (vertex points ((j + 1) % points.length)) = true
      · rw [if_pos hm]
        exact iff_of_true rfl (.inl ⟨hskip, (meets_iff _ _ _ _).1 hm⟩)
      · rw [if_neg hm, ih]
        constructor
        · exact .inr
        · rintro (hc | hc)
          · exact absurd ((meets_iff _ _ _ _).2 hc.2) hm
          · exact hc

/-- What the outer loop asks of one edge. -/
def Clear (points : List (Point K)) (i : Nat) : Prop :=
  vertex points i ≠ vertex points ((i + 1) % points.length) ∧
    ∀ j, i + 1 ≤ j → j < points.length → ¬Collide points i j

theorem outlineLoop_iff (points : List (Point K)) (left i : Nat) (twiceArea : K)
    (h : i + left = points.length) :
    outlineLoop points left i twiceArea = true ↔
      (∀ k, i ≤ k → k < points.length → Clear points k) ∧
        twiceArea + ∑ k ∈ Finset.range left,
          Import.cross (vertex points 0) (vertex points (i + k))
            (vertex points ((i + k + 1) % points.length)) ≠ 0 := by
  induction left generalizing i twiceArea with
  | zero =>
    simp only [outlineLoop, decide_eq_true_eq, Finset.range_zero, Finset.sum_empty, add_zero]
    constructor
    · exact fun hne => ⟨fun k hk hk' => by omega, hne⟩
    · exact fun hne => hne.2
  | succ left ih =>
    have hfirst : (∀ k, i ≤ k → k < points.length → Clear points k) ↔
        Clear points i ∧ ∀ k, i + 1 ≤ k → k < points.length → Clear points k := by
      constructor
      · exact fun hall => ⟨hall i (Nat.le_refl i) (by omega), fun k hk => hall k (by omega)⟩
      · rintro ⟨hi, hall⟩ k hk hk'
        rcases Nat.eq_or_lt_of_le hk with rfl | hlt
        · exact hi
        · exact hall k hlt hk'
    have hsum : ∀ f : Nat → K, ∑ k ∈ Finset.range (left + 1), f (i + k) =
        f i + ∑ k ∈ Finset.range left, f (i + 1 + k) := by
      intro f
      rw [Finset.sum_range_succ', add_comm, Nat.add_zero]
      simp only [Nat.add_assoc, Nat.add_comm 1]
    rw [hfirst, hsum fun k => Import.cross (vertex points 0) (vertex points k)
      (vertex points ((k + 1) % points.length)), ← add_assoc, outlineLoop]
    by_cases hab : vertex points i = vertex points ((i + 1) % points.length)
    · rw [if_pos hab]
      exact iff_of_false (by simp) fun hno => hno.1.1.1 hab
    · rw [if_neg hab]
      by_cases hm : meetsLater points i (points.length - (i + 1)) (i + 1) = true
      · rw [if_pos hm]
        obtain ⟨j, hj, hj', hc⟩ := (meetsLater_iff _ _ _ _).1 hm
        exact iff_of_false (by simp) fun hno => hno.1.1.2 j hj (by omega) hc
      · rw [if_neg hm, ih (i + 1) _ (by omega)]
        have hclear : Clear points i := by
          refine ⟨hab, fun j hj hj' hc => hm ((meetsLater_iff _ _ _ _).2 ?_)⟩
          exact ⟨j, hj, by omega, hc⟩
        exact and_congr (and_iff_right hclear).symm Iff.rfl

/-! ## The area -/

omit [LinearOrder K] [IsStrictOrderedRing K] in
/-- Around the polygon every vertex comes once. -/
theorem sum_next (n : Nat) (f : Nat → K) :
    ∑ i ∈ Finset.range n, f ((i + 1) % n) = ∑ i ∈ Finset.range n, f i := by
  cases n with
  | zero => rfl
  | succ m =>
    rw [Finset.sum_range_succ, Finset.sum_range_succ' f, Nat.mod_self]
    congr 1
    refine Finset.sum_congr rfl fun i hi => ?_
    rw [Nat.mod_eq_of_lt (Nat.succ_lt_succ (Finset.mem_range.1 hi))]

omit [LinearOrder K] [IsStrictOrderedRing K] in
/-- The fan of triangles at the first vertex. -/
theorem fan_eq (points : List (Point K)) :
    ∑ i ∈ Finset.range points.length, Import.cross (vertex points 0) (vertex points i)
      (vertex points ((i + 1) % points.length)) = twiceSignedArea points := by
  obtain ⟨o, ho⟩ : ∃ o, vertex points 0 = o := ⟨_, rfl⟩
  rw [ho]
  have hterm : ∀ a b : Point K, Import.cross o a b =
      (a.1 * b.2 - b.1 * a.2) + ((o.1 * a.2 - o.2 * a.1) - (o.1 * b.2 - o.2 * b.1)) := by
    intro a b
    unfold Import.cross
    ring
  simp only [hterm, Finset.sum_add_distrib, Finset.sum_sub_distrib]
  rw [sum_next _ fun i => o.1 * (vertex points i).2, sum_next _ fun i => o.2 * (vertex points i).1]
  rw [twiceSignedArea, Finset.sum_sub_distrib]
  ring

/-! ## Neighbours -/

variable {points : List (Point K)}

omit [IsStrictOrderedRing K] in
theorem clear_iff : (∀ i < points.length, Clear points i) ↔
    (∀ i < points.length, vertex points i ≠ vertex points ((i + 1) % points.length)) ∧
      ∀ i < points.length, ∀ j < points.length, i ≠ j → j ≠ (i + 1) % points.length →
        i ≠ (j + 1) % points.length → ∀ p, ¬(OnEdge points i p ∧ OnEdge points j p) := by
  have hskip : ∀ i j, i < j → j < points.length →
      ((j = i + 1 ∨ i = 0 ∧ j = points.length - 1) ↔
        j = (i + 1) % points.length ∨ i = (j + 1) % points.length) := by
    intro i j hij hj
    rw [Nat.mod_eq_of_lt (show i + 1 < points.length by omega)]
    rcases Nat.lt_or_ge (j + 1) points.length with hlt | hge
    · rw [Nat.mod_eq_of_lt hlt]
      omega
    · rw [show j + 1 = points.length by omega, Nat.mod_self]
      omega
  constructor
  · intro hall
    refine ⟨fun i hi => (hall i hi).1, fun i hi j hj hne hij hji p hp => ?_⟩
    rcases Nat.lt_or_gt_of_ne hne with hlt | hgt
    · refine (hall i hi).2 j hlt hj ⟨?_, p, hp⟩
      rw [hskip i j hlt hj]
      exact fun ho => ho.elim hij hji
    · refine (hall j hj).2 i hgt hi ⟨?_, p, hp.2, hp.1⟩
      rw [hskip j i hgt hi]
      exact fun ho => ho.elim hji hij
  · rintro ⟨hedges, hapart⟩ i hi
    refine ⟨hedges i hi, fun j hij hj hc => ?_⟩
    obtain ⟨hno, p, hp⟩ := hc
    rw [hskip i j hij hj, not_or] at hno
    exact hapart i hi j hj (by omega) hno.1 hno.2 p hp

/-! ## Folds -/

variable {i : Nat}

/-- The next vertex, without a division. -/
theorem next_cases {n : Nat} (h : i < n) :
    (i + 1) % n = i + 1 ∧ i + 1 < n ∨ (i + 1) % n = 0 ∧ i + 1 = n := by
  rcases Nat.lt_or_ge (i + 1) n with hlt | hge
  · exact .inl ⟨Nat.mod_eq_of_lt hlt, hlt⟩
  · obtain rfl : i + 1 = n := by omega
    exact .inr ⟨Nat.mod_self _, rfl⟩

theorem exists_before {n : Nat} (h : i < n) : ∃ j < n, (j + 1) % n = i := by
  rcases Nat.eq_zero_or_pos i with rfl | hpos
  · refine ⟨n - 1, by omega, ?_⟩
    rw [Nat.sub_add_cancel (by omega), Nat.mod_self]
  · refine ⟨i - 1, by omega, ?_⟩
    rw [Nat.sub_add_cancel hpos, Nat.mod_eq_of_lt h]

/-- Of four or more around, the one after the next is neither the next nor the one before. -/
theorem two_apart {n : Nat} (hn : 4 ≤ n) (h : i < n) :
    i ≠ ((i + 1) % n + 1) % n ∧ ((i + 1) % n + 1) % n ≠ (i + 1) % n ∧
      i ≠ (((i + 1) % n + 1) % n + 1) % n := by
  have h₁ : (i + 1) % n < n := Nat.mod_lt _ (by omega)
  have h₂ : ((i + 1) % n + 1) % n < n := Nat.mod_lt _ (by omega)
  have c₁ := next_cases h
  have c₂ := next_cases h₁
  have c₃ := next_cases h₂
  omega

/-- Four edges or more: the end of the shorter one is where an edge that is compared begins. -/
theorem folds_meet (hfour : 4 ≤ points.length)
    (hapart : ∀ i < points.length, ∀ j < points.length, i ≠ j → j ≠ (i + 1) % points.length →
      i ≠ (j + 1) % points.length → ∀ p, ¬(OnEdge points i p ∧ OnEdge points j p))
    (hi : i < points.length) {p : Point K} (hp : OnEdge points i p)
    (hp' : OnEdge points ((i + 1) % points.length) p) :
    p = vertex points ((i + 1) % points.length) := by
  by_contra hne
  have hnext : ∀ k, (k + 1) % points.length < points.length := fun k => Nat.mod_lt _ (by omega)
  rcases fold hp hp' hne with hfirst | hlast
  · -- The edge before `i` ends on the edge after it.
    obtain ⟨j, hj, rfl⟩ := exists_before hi
    have hend : OnEdge points j (vertex points ((j + 1) % points.length)) := onSegment_last _ _
    obtain ⟨h₁, h₂, h₃⟩ := two_apart hfour hj
    exact hapart j hj _ (hnext _) h₁ h₂ h₃ _ ⟨hend, hfirst⟩
  · -- The edge after the next begins on the edge `i`.
    have hbegin : OnEdge points (((i + 1) % points.length + 1) % points.length)
        (vertex points (((i + 1) % points.length + 1) % points.length)) := onSegment_first _ _
    obtain ⟨h₁, h₂, h₃⟩ := two_apart hfour hi
    exact hapart i hi _ (hnext _) h₁ h₂ h₃ _ ⟨hlast, hbegin⟩

/-- Three edges: a fold puts the vertices on one line. -/
theorem folds_flat (hthree : points.length = 3) (harea : twiceSignedArea points ≠ 0)
    (hi : i < points.length) {p : Point K} (hp : OnEdge points i p)
    (hp' : OnEdge points ((i + 1) % points.length) p) :
    p = vertex points ((i + 1) % points.length) := by
  by_contra hne
  refine harea ?_
  have hflat : ∀ a b c : Point K, OnSegment a b p → OnSegment b c p → p ≠ b →
      Segment.cross a b c = 0 := by
    intro a b c hab hbc hpb
    rcases fold hab hbc hpb with ⟨t, -, -, ht⟩ | ⟨t, -, -, rfl⟩
    · rw [← cross_rotate, ht, Segment.cross_self]
    · exact Segment.cross_self a b t
  have harea' : twiceSignedArea points =
      Segment.cross (vertex points 0) (vertex points 1) (vertex points 2) := by
    rw [twiceSignedArea, hthree]
    simp only [Finset.sum_range_succ, Finset.sum_range_zero]
    unfold Segment.cross
    ring
  rw [harea']
  unfold OnEdge at hp hp'
  rw [hthree] at hi hp hp' hne
  obtain rfl | rfl | rfl : i = 0 ∨ i = 1 ∨ i = 2 := by omega
  · exact hflat _ _ _ hp hp' hne
  · rw [← cross_rotate]
    exact hflat _ _ _ hp hp' hne
  · rw [← cross_rotate, ← cross_rotate]
    exact hflat _ _ _ hp hp' hne

/-- The importer takes exactly the simple outlines. -/
theorem simple_iff (points : List (Point K)) :
    simpleImportOutline points = true ↔ SimpleOutline points := by
  unfold simpleImportOutline
  by_cases hfew : points.length < 3
  · rw [if_pos hfew]
    exact iff_of_false (by simp) fun h => absurd h.vertices (by omega)
  have hall : (∀ k, 0 ≤ k → k < points.length → Clear points k) ↔
      ∀ k < points.length, Clear points k :=
    ⟨fun h k => h k (Nat.zero_le k), fun h k _ => h k⟩
  rw [if_neg hfew, outlineLoop_iff points _ 0 0 (Nat.zero_add _), hall, clear_iff, zero_add]
  simp only [Nat.zero_add, fan_eq]
  constructor
  · rintro ⟨⟨hedges, hapart⟩, harea⟩
    refine ⟨by omega, hedges, harea, hapart, fun i hi p hp hp' => ?_⟩
    by_cases hthree : points.length = 3
    · exact folds_flat hthree harea hi hp hp'
    · exact folds_meet (by omega) hapart hi hp hp'
  · exact fun h => ⟨⟨h.edges, h.apart⟩, h.area⟩

end Import
end Gui
end Mowgli
