import Mathlib
import Mowgli.Lib.Polygon
import Mowgli.Transit.Geometry

/-!
# Reals — the geometry over exact numbers

The format whose finite numbers are the reals, with the two infinities. `kEpsilon` may be any
real, and `nextafter` any step upwards. Over it each function of `Geometry` is what its name says,
in the terms of `Polygon`: the lemmas below take one function each.
-/

namespace Mowgli
namespace Transit

open Segment

noncomputable section

open Classical in
/-- Real numbers and the infinities. -/
def realFormat (ε : ℝ) (ulp : ℝ → NNReal) : Format EReal where
  lit := fun q => if q = 1 / 100000000 then (ε : EReal) else ((q : ℝ) : EReal)
  add := (· + ·)
  sub := (· - ·)
  mul := (· * ·)
  div := (· / ·)
  fmod := fun x y => ((x.toReal - y.toReal * ⌊x.toReal / y.toReal⌋ : ℝ) : EReal)
  hypot := fun x y => ((√(x.toReal * x.toReal + y.toReal * y.toReal) : ℝ) : EReal)
  abs := fun x => if x < 0 then -x else x
  ceil := fun x => ((⌈x.toReal⌉ : ℝ) : EReal)
  cos := fun x => ((Real.cos x.toReal : ℝ) : EReal)
  sin := fun x => ((Real.sin x.toReal : ℝ) : EReal)
  lt := fun x y => decide (x < y)
  le := fun x y => decide (x ≤ y)
  eq := fun x y => decide (x = y)
  isFinite := fun x => decide (x ≠ ⊤ ∧ x ≠ ⊥)
  infinity := ⊤
  floor := fun x => ((⌊x.toReal⌋ : ℝ) : EReal)
  round := fun x =>
    if 0 ≤ x then ((⌊x.toReal + 0.5⌋ : ℝ) : EReal) else ((⌈x.toReal - 0.5⌉ : ℝ) : EReal)
  next := fun x => x + ((ulp x.toReal : ℝ) : EReal)
  toInt := fun x => if 0 ≤ x then ⌊x.toReal⌋ else ⌈x.toReal⌉
  throughFloat := id

/-- A point of the plane. -/
def lift (p : ℝ × ℝ) : Point EReal := ⟨(p.1 : EReal), (p.2 : EReal)⟩

def liftRing (ring : List (ℝ × ℝ)) : Ring EReal := ring.map lift

variable {ε : ℝ} {ulp : ℝ → NNReal}

/-! ## The operations on finite numbers -/

section Operations

variable (x y : ℝ)

@[simp] theorem real_add : (realFormat ε ulp).add x y = ((x + y : ℝ) : EReal) :=
  (EReal.coe_add x y).symm

@[simp] theorem real_sub : (realFormat ε ulp).sub x y = ((x - y : ℝ) : EReal) :=
  (EReal.coe_sub x y).symm

@[simp] theorem real_mul : (realFormat ε ulp).mul x y = ((x * y : ℝ) : EReal) :=
  (EReal.coe_mul x y).symm

@[simp] theorem real_div : (realFormat ε ulp).div x y = ((x / y : ℝ) : EReal) :=
  (EReal.coe_div x y).symm

@[simp] theorem real_lt : (realFormat ε ulp).lt x y = decide (x < y) := by
  show decide ((x : EReal) < y) = decide (x < y)
  exact decide_eq_decide.2 EReal.coe_lt_coe_iff

@[simp] theorem real_le : (realFormat ε ulp).le x y = decide (x ≤ y) := by
  show decide ((x : EReal) ≤ y) = decide (x ≤ y)
  exact decide_eq_decide.2 EReal.coe_le_coe_iff

@[simp] theorem real_eq : (realFormat ε ulp).eq x y = decide (x = y) := by
  show decide ((x : EReal) = y) = decide (x = y)
  exact decide_eq_decide.2 EReal.coe_eq_coe_iff

@[simp] theorem real_isFinite : (realFormat ε ulp).isFinite x = true := by
  show decide ((x : EReal) ≠ ⊤ ∧ (x : EReal) ≠ ⊥) = true
  exact decide_eq_true ⟨EReal.coe_ne_top x, EReal.coe_ne_bot x⟩

@[simp] theorem real_kEpsilon : kEpsilon (realFormat ε ulp) = (ε : EReal) := if_pos rfl

@[simp] theorem real_lit_zero : (realFormat ε ulp).lit 0 = ((0 : ℝ) : EReal) := by
  show (if (0 : ℚ) = 1 / 100000000 then (ε : EReal) else (((0 : ℚ) : ℝ) : EReal)) = _
  rw [if_neg (by norm_num), Rat.cast_zero]

@[simp] theorem real_lit_one : (realFormat ε ulp).lit 1 = ((1 : ℝ) : EReal) := by
  show (if (1 : ℚ) = 1 / 100000000 then (ε : EReal) else (((1 : ℚ) : ℝ) : EReal)) = _
  rw [if_neg (by norm_num), Rat.cast_one]

@[simp] theorem real_lit_two : (realFormat ε ulp).lit 2 = ((2 : ℝ) : EReal) := by
  show (if (2 : ℚ) = 1 / 100000000 then (ε : EReal) else (((2 : ℚ) : ℝ) : EReal)) = _
  rw [if_neg (by norm_num), Rat.cast_ofNat]

@[simp] theorem real_lit_eight : (realFormat ε ulp).lit 8 = ((8 : ℝ) : EReal) := by
  show (if (8 : ℚ) = 1 / 100000000 then (ε : EReal) else (((8 : ℚ) : ℝ) : EReal)) = _
  rw [if_neg (by norm_num), Rat.cast_ofNat]

@[simp] theorem real_lit_natCast (n : ℕ) : (realFormat ε ulp).lit n = ((n : ℝ) : EReal) := by
  show (if ((n : ℚ)) = 1 / 100000000 then (ε : EReal) else (((n : ℚ) : ℝ) : EReal)) = _
  rw [if_neg, Rat.cast_natCast]
  intro h
  rcases Nat.eq_zero_or_pos n with rfl | hn
  · norm_num at h
  · have hone : (1 : ℚ) ≤ n := Nat.one_le_cast.2 hn
    rw [h] at hone
    norm_num at hone

@[simp] theorem real_lit_intCast (k : ℤ) : (realFormat ε ulp).lit k = ((k : ℝ) : EReal) := by
  show (if ((k : ℚ)) = 1 / 100000000 then (ε : EReal) else (((k : ℚ) : ℝ) : EReal)) = _
  rw [if_neg, Rat.cast_intCast]
  intro h
  have hone : (k * 100000000 : ℤ) = 1 := by
    have hcast : (k : ℚ) * 100000000 = 1 := by
      rw [h]
      norm_num
    exact_mod_cast hcast
  omega

@[simp] theorem real_lit_half : (realFormat ε ulp).lit (1 / 2) = ((1 / 2 : ℝ) : EReal) := by
  show (if (1 / 2 : ℚ) = 1 / 100000000 then (ε : EReal) else (((1 / 2 : ℚ) : ℝ) : EReal)) = _
  rw [if_neg (by norm_num)]
  norm_num

theorem real_hypot :
    (realFormat ε ulp).hypot x y = ((√(x * x + y * y) : ℝ) : EReal) := rfl

@[simp] theorem real_abs : (realFormat ε ulp).abs x = ((|x| : ℝ) : EReal) := by
  have hneg : (x : EReal) < 0 ↔ x < 0 := by
    rw [← EReal.coe_zero]
    exact EReal.coe_lt_coe_iff
  show (if (x : EReal) < 0 then -(x : EReal) else (x : EReal)) = _
  by_cases hx : x < 0
  · rw [if_pos (hneg.2 hx), abs_of_neg hx, EReal.coe_neg]
  · rw [if_neg (fun h => hx (hneg.1 h)), abs_of_nonneg (not_lt.1 hx)]

@[simp] theorem real_min : (realFormat ε ulp).min x y = ((min x y : ℝ) : EReal) := by
  unfold Arith.min
  rw [real_lt]
  by_cases h : y < x
  · rw [if_pos (decide_eq_true h), min_eq_right (le_of_lt h)]
  · rw [if_neg (by simpa using h), min_eq_left (not_lt.1 h)]

@[simp] theorem real_max : (realFormat ε ulp).max x y = ((max x y : ℝ) : EReal) := by
  unfold Arith.max
  rw [real_lt]
  by_cases h : x < y
  · rw [if_pos (decide_eq_true h), max_eq_right (le_of_lt h)]
  · rw [if_neg (by simpa using h), max_eq_left (not_lt.1 h)]

theorem real_clamp_unit :
    (realFormat ε ulp).clamp x ((0 : ℝ) : EReal) ((1 : ℝ) : EReal) =
      ((unitClamp x : ℝ) : EReal) := by
  unfold Arith.clamp unitClamp
  rw [real_lt, real_lt]
  by_cases hlow : x < 0
  · rw [if_pos (decide_eq_true hlow), if_pos hlow]
  · rw [if_neg (by simpa using hlow), if_neg hlow]
    by_cases hhigh : 1 < x
    · rw [if_pos (decide_eq_true hhigh), if_pos hhigh]
    · rw [if_neg (by simpa using hhigh), if_neg hhigh]

end Operations

/-! ## Points and edges -/

@[simp] theorem lift_x (p : ℝ × ℝ) : (lift p).x = (p.1 : EReal) := rfl
@[simp] theorem lift_y (p : ℝ × ℝ) : (lift p).y = (p.2 : EReal) := rfl

@[simp] theorem interpolate_lift (a b : ℝ × ℝ) (t : ℝ) :
    interpolate (realFormat ε ulp) (lift a) (lift b) t = lift (along a b t) := by
  unfold interpolate lift along
  simp only [real_add, real_sub, real_mul]

@[simp] theorem half_coe (x y : ℝ) :
    half (realFormat ε ulp) x y = (((x + y) / 2 : ℝ) : EReal) := by
  unfold half
  simp only [real_add, real_lit_two, real_div]

@[simp] theorem distance_lift (p q : ℝ × ℝ) :
    distance (realFormat ε ulp) (lift p) (lift q) = ((√(sqDist p q) : ℝ) : EReal) := by
  unfold distance sqDist
  simp only [lift_x, lift_y, real_sub]
  exact real_hypot _ _

@[simp] theorem cross_lift (a b : ℝ × ℝ) :
    cross (realFormat ε ulp) (lift a) (lift b) = ((a.1 * b.2 - a.2 * b.1 : ℝ) : EReal) := by
  unfold cross
  simp only [lift_x, lift_y, real_mul, real_sub]

theorem closestOnEdge_lift (p a b : ℝ × ℝ) :
    closestOnEdge (realFormat ε ulp) (lift p) (lift a) (lift b) =
      lift (Polygon.nearest p (a, b)) := by
  have hlen : (realFormat ε ulp).add
      ((realFormat ε ulp).mul ((realFormat ε ulp).sub (lift b).x (lift a).x)
        ((realFormat ε ulp).sub (lift b).x (lift a).x))
      ((realFormat ε ulp).mul ((realFormat ε ulp).sub (lift b).y (lift a).y)
        ((realFormat ε ulp).sub (lift b).y (lift a).y)) = ((sqDist b a : ℝ) : EReal) := by
    simp only [lift_x, lift_y, real_sub, real_mul, real_add]
    rfl
  unfold closestOnEdge Polygon.nearest
  simp only [hlen, real_lit_zero, real_lit_one, real_eq]
  by_cases hzero : sqDist b a = 0
  · rw [if_pos (decide_eq_true hzero), interpolate_lift]
    simp only [along_of_point hzero]
  · rw [if_neg (by simpa using hzero)]
    simp only [lift_x, lift_y, real_sub, real_mul, real_add, real_div]
    rw [real_clamp_unit, interpolate_lift]
    rfl

@[simp] theorem edgeDistance_lift (p a b : ℝ × ℝ) :
    edgeDistance (realFormat ε ulp) (lift p) (lift a) (lift b) =
      ((Polygon.edgeDist p (a, b) : ℝ) : EReal) := by
  unfold edgeDistance
  rw [closestOnEdge_lift, distance_lift]
  rfl

/-- An edge with real ends. -/
def liftEdge (e : (ℝ × ℝ) × (ℝ × ℝ)) : Point EReal × Point EReal := (lift e.1, lift e.2)

theorem edges_lift (ring : List (ℝ × ℝ)) :
    edges (liftRing ring) = (Polygon.edges ring).map liftEdge := by
  have hlast : (ring.map lift).getLast?.toList = ring.getLast?.toList.map lift := by
    rw [List.getLast?_map]
    cases ring.getLast? with
    | none => rfl
    | some v => rfl
  unfold edges Polygon.edges liftRing
  rw [hlast, ← List.map_append, List.zip_map]
  rfl

theorem onEdge_lift (p a b : ℝ × ℝ) :
    onEdge (realFormat ε ulp) (lift p) (lift a) (lift b) =
      decide (Polygon.edgeDist p (a, b) ≤ ε) := by
  unfold onEdge
  simp only [lift_x, lift_y, real_min, real_max, real_kEpsilon, real_sub, real_add, real_le,
    edgeDistance_lift]
  by_cases h : Polygon.edgeDist p (a, b) ≤ ε
  · obtain ⟨⟨h1, h2⟩, h3, h4⟩ := Polygon.between_of_edgeDist h
    simp only at h1 h2 h3 h4
    simp [h, h1, h2, h3, h4]
  · simp [h]

theorem spansRow_lift (y : ℝ) (e : (ℝ × ℝ) × (ℝ × ℝ)) :
    spansRow (realFormat ε ulp) (y : EReal) (lift e.1) (lift e.2) = Polygon.spans y e := by
  unfold spansRow Polygon.spans
  simp only [lift_y, real_lt]

theorem crossing_lift (y : ℝ) (e : (ℝ × ℝ) × (ℝ × ℝ)) :
    crossing (realFormat ε ulp) (y : EReal) (lift e.1) (lift e.2) =
      ((Polygon.crossX y e : ℝ) : EReal) := by
  unfold crossing Polygon.crossX
  simp only [lift_x, lift_y, real_sub, real_mul, real_div, real_add]

/-! ## Rings -/

/-- Near some edge of a ring. -/
def NearRing (r : ℝ) (ring : List (ℝ × ℝ)) (p : ℝ × ℝ) : Prop :=
  ∃ e ∈ Polygon.edges ring, Polygon.edgeDist p e ≤ r

/-- `inside`, for the plane. -/
def Inside (ε : ℝ) (ring : List (ℝ × ℝ)) (p : ℝ × ℝ) : Prop :=
  3 ≤ ring.length ∧ (NearRing ε ring p ∨ Polygon.oddAt ring p = true)

theorem inside_lift (ring : List (ℝ × ℝ)) (p : ℝ × ℝ) :
    inside (realFormat ε ulp) (lift p) (liftRing ring) = true ↔ Inside ε ring p := by
  unfold inside Inside
  have hlen : (liftRing ring).length = ring.length := List.length_map _
  rw [hlen, edges_lift]
  simp only [lift_x, lift_y, real_isFinite, Bool.not_true, Bool.or_false]
  by_cases hshort : ring.length < 3
  · rw [if_pos (by simpa using hshort)]
    constructor
    · intro h
      cases h
    · intro h
      exact absurd h.1 (not_le.2 hshort)
  · rw [if_neg (by simpa using hshort), Bool.or_eq_true]
    have hnear : ((Polygon.edges ring).map liftEdge).any
        (fun e => onEdge (realFormat ε ulp) (lift p) e.1 e.2) = true ↔ NearRing ε ring p := by
      rw [List.any_map, List.any_eq_true]
      constructor
      · intro h
        obtain ⟨e, he, hon⟩ := h
        exact ⟨e, he, of_decide_eq_true ((onEdge_lift p e.1 e.2).symm.trans hon)⟩
      · intro h
        obtain ⟨e, he, hle⟩ := h
        exact ⟨e, he, (onEdge_lift p e.1 e.2).trans (decide_eq_true hle)⟩
    have hodd : ((Polygon.edges ring).map liftEdge).foldl (fun result e =>
        if spansRow (realFormat ε ulp) (p.2 : EReal) e.1 e.2 &&
          (realFormat ε ulp).lt (p.1 : EReal) (crossing (realFormat ε ulp) (p.2 : EReal) e.1 e.2)
        then !result else result) false = Polygon.oddAt ring p := by
      rw [List.foldl_map]
      have hstep : ∀ e : (ℝ × ℝ) × (ℝ × ℝ),
          (spansRow (realFormat ε ulp) (p.2 : EReal) (liftEdge e).1 (liftEdge e).2 &&
            (realFormat ε ulp).lt (p.1 : EReal)
              (crossing (realFormat ε ulp) (p.2 : EReal) (liftEdge e).1 (liftEdge e).2)) =
            Polygon.crosses p e := by
        intro e
        unfold liftEdge Polygon.crosses
        rw [spansRow_lift, crossing_lift, real_lt]
      simp only [hstep]
      rw [Parity.foldl_toggle]
      unfold Polygon.oddAt
      simp
    constructor
    · intro h
      rcases h with h | h
      · exact ⟨not_lt.1 hshort, Or.inl (hnear.1 h)⟩
      · exact ⟨not_lt.1 hshort, Or.inr (hodd.symm.trans h)⟩
    · intro h
      rcases h.2 with h | h
      · exact Or.inl (hnear.2 h)
      · exact Or.inr (hodd.trans h)

variable {ring : List (ℝ × ℝ)}

variable {p : ℝ × ℝ}

/-- What is inside a ring lies in its box, widened by the tolerance. -/
theorem Inside.box (hε : 0 ≤ ε) (h : Inside ε ring p) : Polygon.InBox ε ring p := by
  rcases h.2 with ⟨e, he, hle⟩ | hodd
  · exact Polygon.box_of_edgeDist he hle
  · exact (Polygon.box_of_oddAt hodd).mono hε

/-! ## Boxes -/

/-- The corners of the box of a ring. -/
structure Box (ring : List (ℝ × ℝ)) (lo hi : ℝ × ℝ) : Prop where
  within : ∀ v ∈ ring, (lo.1 ≤ v.1 ∧ v.1 ≤ hi.1) ∧ lo.2 ≤ v.2 ∧ v.2 ≤ hi.2
  left : ∃ v ∈ ring, v.1 = lo.1
  right : ∃ v ∈ ring, v.1 = hi.1
  below : ∃ v ∈ ring, v.2 = lo.2
  above : ∃ v ∈ ring, v.2 = hi.2

theorem Box.inBox_iff {lo hi : ℝ × ℝ} (h : Box ring lo hi) {r : ℝ} :
    Polygon.InBox r ring p ↔
      (lo.1 - r ≤ p.1 ∧ p.1 ≤ hi.1 + r) ∧ lo.2 - r ≤ p.2 ∧ p.2 ≤ hi.2 + r := by
  constructor
  · intro hp
    obtain ⟨⟨a, ha, hpa⟩, ⟨b, hb, hpb⟩, ⟨c, hc, hpc⟩, ⟨d, hd, hpd⟩⟩ := hp
    refine ⟨⟨?_, ?_⟩, ?_, ?_⟩
    · linarith [(h.within a ha).1.1]
    · linarith [(h.within b hb).1.2]
    · linarith [(h.within c hc).2.1]
    · linarith [(h.within d hd).2.2]
  · intro hp
    obtain ⟨a, ha, hla⟩ := h.left
    obtain ⟨b, hb, hlb⟩ := h.right
    obtain ⟨c, hc, hlc⟩ := h.below
    obtain ⟨d, hd, hld⟩ := h.above
    exact ⟨⟨a, ha, hla ▸ hp.1.1⟩, ⟨b, hb, hlb ▸ hp.1.2⟩, ⟨c, hc, hlc ▸ hp.2.1⟩,
      ⟨d, hd, hld ▸ hp.2.2⟩⟩

theorem Box.one (v : ℝ × ℝ) : Box [v] v v := by
  refine ⟨?_, ⟨v, by simp⟩, ⟨v, by simp⟩, ⟨v, by simp⟩, ⟨v, by simp⟩⟩
  intro w hw
  rw [List.mem_singleton.1 hw]
  exact ⟨⟨le_refl _, le_refl _⟩, le_refl _, le_refl _⟩

theorem Box.snoc {lo hi : ℝ × ℝ} (h : Box ring lo hi) (v : ℝ × ℝ) :
    Box (ring ++ [v]) (min lo.1 v.1, min lo.2 v.2) (max hi.1 v.1, max hi.2 v.2) := by
  -- the extreme of a list with one more element is the old one or the new one
  have hpick : ∀ (f : ℝ × ℝ → ℝ) (x y : ℝ), (∃ w ∈ ring, f w = x) → y = x ∨ y = f v →
      ∃ w ∈ ring ++ [v], f w = y := by
    intro f x y hx hy
    rcases hy with rfl | rfl
    · obtain ⟨w, hw, hfw⟩ := hx
      exact ⟨w, List.mem_append_left _ hw, hfw⟩
    · exact ⟨v, by simp, rfl⟩
  refine ⟨?_, hpick (·.1) _ _ h.left (min_choice _ _), hpick (·.1) _ _ h.right (max_choice _ _),
    hpick (·.2) _ _ h.below (min_choice _ _), hpick (·.2) _ _ h.above (max_choice _ _)⟩
  intro w hw
  rcases List.mem_append.1 hw with hw | hw
  · obtain ⟨⟨h1, h2⟩, h3, h4⟩ := h.within w hw
    exact ⟨⟨min_le_of_left_le h1, le_max_of_le_left h2⟩, min_le_of_left_le h3,
      le_max_of_le_left h4⟩
  · rw [List.mem_singleton.1 hw]
    exact ⟨⟨min_le_right _ _, le_max_right _ _⟩, min_le_right _ _, le_max_right _ _⟩

theorem real_min_top (x : EReal) : (realFormat ε ulp).min ⊤ x = x := by
  unfold Arith.min
  show (if decide (x < ⊤) = true then x else ⊤) = x
  by_cases h : x < ⊤
  · rw [if_pos (decide_eq_true h)]
  · rw [if_neg (by simpa using h)]
    exact (not_lt_top_iff.1 h).symm

theorem real_neg_top : (realFormat ε ulp).neg ⊤ = ⊥ := by
  show (if (-1 : ℚ) = 1 / 100000000 then (ε : EReal) else (((-1 : ℚ) : ℝ) : EReal)) * ⊤ = ⊥
  rw [if_neg (by norm_num)]
  exact EReal.coe_mul_top_of_neg (by norm_num)

theorem real_max_bot (x : EReal) : (realFormat ε ulp).max ⊥ x = x := by
  unfold Arith.max
  show (if decide (⊥ < x) = true then x else ⊥) = x
  by_cases h : ⊥ < x
  · rw [if_pos (decide_eq_true h)]
  · rw [if_neg (by simpa using h)]
    exact (not_bot_lt_iff.1 h).symm

variable (ε ulp) in
/-- The box the loop computes is the box. -/
theorem bounds_lift (h : ring ≠ []) :
    ∃ lo hi, bounds (realFormat ε ulp) (liftRing ring) = (lift lo, lift hi) ∧ Box ring lo hi := by
  induction ring using List.reverseRecOn with
  | nil => exact absurd rfl h
  | append_singleton vs v ih =>
    have hsplit : liftRing (vs ++ [v]) = liftRing vs ++ [lift v] := by
      simp [liftRing]
    unfold bounds at ih ⊢
    rw [hsplit, List.foldl_append, List.foldl_cons, List.foldl_nil]
    rcases List.eq_nil_or_concat vs with rfl | ⟨ws, w, rfl⟩
    · refine ⟨v, v, ?_, Box.one v⟩
      have hinf : (realFormat ε ulp).infinity = ⊤ := rfl
      simp only [liftRing, List.map_nil, List.foldl_nil, hinf, real_neg_top, real_min_top,
        real_max_bot]
    · obtain ⟨lo, hi, heq, hbox⟩ := ih (by simp)
      rw [heq]
      refine ⟨_, _, ?_, hbox.snoc v⟩
      simp only [lift_x, lift_y, real_min, real_max]
      rfl

variable (ε ulp) in
theorem real_foldl_max (xs : List ℝ) (x : ℝ) :
    (xs.map (fun y : ℝ => (y : EReal))).foldl (realFormat ε ulp).max (x : EReal) =
      ((xs.foldl max x : ℝ) : EReal) := by
  induction xs generalizing x with
  | nil => rfl
  | cons y ys ih => rw [List.map_cons, List.foldl_cons, real_max, ih, List.foldl_cons]

variable (ε ulp) in
theorem sorted_lift (ts : List ℝ) :
    sorted (realFormat ε ulp) (ts.map (fun t : ℝ => (t : EReal))) =
      (ts.insertionSort (· ≤ ·)).map (fun t : ℝ => (t : EReal)) := by
  unfold sorted
  refine (List.map_insertionSort _ _ _ _ ?_).symm
  intro a _ b _
  rw [real_le, decide_eq_true_iff]

/-- A ring that is called remote has nothing, within the margin of its box, in the box of the
segment: the padding is the margin or more. -/
theorem remoteRing_lift {a b : ℝ × ℝ} (hring : ring ≠ []) {m : ℝ}
    (h : remoteRing (realFormat ε ulp) (lift a) (lift b) (liftRing ring) (m : EReal) = true)
    {q : ℝ × ℝ} (hx : min a.1 b.1 ≤ q.1 ∧ q.1 ≤ max a.1 b.1)
    (hy : min a.2 b.2 ≤ q.2 ∧ q.2 ≤ max a.2 b.2) : ¬ Polygon.InBox (max 0 m) ring q := by
  obtain ⟨lo, hi, hbounds, hbox⟩ := bounds_lift ε ulp hring
  rw [hbox.inBox_iff]
  intro hin
  unfold remoteRing at h
  simp only [hbounds, lift_x, lift_y, real_abs] at h
  have hmagnitude := real_foldl_max ε ulp
    [|lo.2|, |hi.1|, |hi.2|, |a.1|, |a.2|, |b.1|, |b.2|, |m|] |lo.1|
  simp only [List.map_cons, List.map_nil] at hmagnitude
  rw [hmagnitude] at h
  generalize ([|lo.2|, |hi.1|, |hi.2|, |a.1|, |a.2|, |b.1|, |b.2|, |m|].foldl max |lo.1|) = M at h
  have hnext : (realFormat ε ulp).next (M : EReal) = ((M + ulp M : ℝ) : EReal) :=
    (EReal.coe_add M (ulp M)).symm
  simp only [hnext, real_sub, real_lit_eight, real_mul, real_lit_zero, real_max, real_add,
    real_isFinite, real_min, real_lt, Bool.true_and, Bool.or_eq_true, decide_eq_true_eq] at h
  have hulp : (0 : ℝ) ≤ ulp M := (ulp M).2
  obtain ⟨⟨h1, h2⟩, h3, h4⟩ := hin
  rcases h with ((h | h) | h) | h
  · linarith [hx.2]
  · linarith [hx.1]
  · linarith [hy.2]
  · linarith [hy.1]

/-! ## Ground -/

/-- A geometry whose numbers are real. -/
structure Ground where
  allowed : List (List (ℝ × ℝ))
  blocked : List (List (ℝ × ℝ)) := []
  blockedMargins : List ℝ := []
  startExempt : List Bool := []
  obstacleMargin : ℝ := 0

def Ground.geometry (g : Ground) : Geometry EReal where
  allowed := g.allowed.map liftRing
  blocked := g.blocked.map liftRing
  blockedMargins := g.blockedMargins.map (fun m : ℝ => (m : EReal))
  startExempt := g.startExempt
  obstacleMargin := (g.obstacleMargin : EReal)

/-- Inside some allowed ring. -/
def Ground.Authorized (ε : ℝ) (g : Ground) (p : ℝ × ℝ) : Prop :=
  ∃ ring ∈ g.allowed, Inside ε ring p

variable (g : Ground)

theorem authorized_lift (p : ℝ × ℝ) :
    g.geometry.authorized (realFormat ε ulp) (lift p) = true ↔ g.Authorized ε p := by
  unfold Geometry.authorized Ground.geometry Ground.Authorized
  rw [List.any_map, List.any_eq_true]
  constructor
  · intro h
    obtain ⟨ring, hring, hin⟩ := h
    exact ⟨ring, hring, (inside_lift ring p).1 hin⟩
  · intro h
    obtain ⟨ring, hring, hin⟩ := h
    exact ⟨ring, hring, (inside_lift ring p).2 hin⟩

/-! ## Distances to rings -/

theorem real_min_eq (x y : EReal) : (realFormat ε ulp).min x y = min x y := by
  unfold Arith.min
  show (if decide (y < x) = true then y else x) = min x y
  by_cases h : y < x
  · rw [if_pos (decide_eq_true h), min_eq_right (le_of_lt h)]
  · rw [if_neg (by simpa using h), min_eq_left (not_lt.1 h)]

theorem foldl_min_le {α : Type} (f : α → EReal) (l : List α) (x r : EReal) :
    l.foldl (fun result e => (realFormat ε ulp).min result (f e)) x ≤ r ↔
      x ≤ r ∨ ∃ e ∈ l, f e ≤ r := by
  induction l generalizing x with
  | nil => simp
  | cons e l ih =>
    rw [List.foldl_cons, ih, real_min_eq, min_le_iff]
    simp only [List.mem_cons, exists_eq_or_imp, or_assoc]

theorem NearRing.mono {r s : ℝ} (h : NearRing r ring p) (hrs : r ≤ s) : NearRing s ring p := by
  obtain ⟨e, he, hle⟩ := h
  exact ⟨e, he, le_trans hle hrs⟩

variable (ulp) in
/-- A ring within a distance holds the point, or has an edge that near. -/
theorem ringDistance_lift (ring : List (ℝ × ℝ)) (p : ℝ × ℝ) {r : ℝ} (hr : 0 ≤ r) :
    ringDistance (realFormat ε ulp) (lift p) (liftRing ring) ≤ (r : EReal) ↔
      Inside ε ring p ∨ NearRing r ring p := by
  unfold ringDistance
  by_cases hin : Inside ε ring p
  · rw [if_pos ((inside_lift ring p).2 hin), real_lit_zero, EReal.coe_le_coe_iff]
    exact ⟨fun _ => Or.inl hin, fun _ => hr⟩
  · rw [if_neg (fun h => hin ((inside_lift ring p).1 h)), edges_lift, List.foldl_map, foldl_min_le]
    have htop : ¬ (realFormat ε ulp).infinity ≤ (r : EReal) := by
      show ¬ (⊤ : EReal) ≤ r
      rw [top_le_iff]
      exact EReal.coe_ne_top r
    constructor
    · intro h
      rcases h with h | ⟨e, he, hle⟩
      · exact absurd h htop
      · refine Or.inr ⟨e, he, ?_⟩
        unfold liftEdge at hle
        rw [edgeDistance_lift, EReal.coe_le_coe_iff] at hle
        exact hle
    · intro h
      rcases h with h | ⟨e, he, hle⟩
      · exact absurd h hin
      · refine Or.inr ⟨e, he, ?_⟩
        unfold liftEdge
        rw [edgeDistance_lift, EReal.coe_le_coe_iff]
        exact hle

def Ground.margin (g : Ground) (i : ℕ) : ℝ := g.blockedMargins.getD i g.obstacleMargin

theorem margin_lift (i : ℕ) : g.geometry.margin i = ((g.margin i : ℝ) : EReal) := by
  unfold Geometry.margin Ground.geometry Ground.margin
  rw [List.getD_eq_getElem?_getD, List.getD_eq_getElem?_getD, List.getElem?_map]
  cases g.blockedMargins[i]? with
  | none => rfl
  | some m => rfl

/-- Outside every blocked ring, and farther from its edges than its margin. -/
def Ground.Clear (ε : ℝ) (g : Ground) (p : ℝ × ℝ) : Prop :=
  ∀ x ∈ g.blocked.zipIdx, ¬ Inside ε x.1 p ∧ ¬ NearRing (g.margin x.2 + ε) x.1 p

/-- No margin is negative. -/
def Ground.Margins (g : Ground) : Prop := ∀ x ∈ g.blocked.zipIdx, 0 ≤ g.margin x.2

theorem zipIdx_lift :
    g.geometry.blocked.zipIdx = g.blocked.zipIdx.map (fun x => (liftRing x.1, x.2)) := by
  show (g.blocked.map liftRing).zipIdx = _
  rw [List.zipIdx_map]
  rfl

theorem clear_lift (hε : 0 ≤ ε) {g : Ground} (hg : g.Margins) (p : ℝ × ℝ) :
    g.geometry.clear (realFormat ε ulp) (lift p) = true ↔ g.Clear ε p := by
  have hone : ∀ x ∈ g.blocked.zipIdx,
      (!(realFormat ε ulp).le (ringDistance (realFormat ε ulp) (lift p) (liftRing x.1))
        ((realFormat ε ulp).add (g.geometry.margin x.2) (kEpsilon (realFormat ε ulp)))) = true ↔
        ¬ Inside ε x.1 p ∧ ¬ NearRing (g.margin x.2 + ε) x.1 p := by
    intro x hx
    rw [margin_lift, real_kEpsilon, real_add, Bool.not_eq_true', ← not_or,
      ← ringDistance_lift ulp x.1 p (add_nonneg (hg x hx) hε)]
    exact decide_eq_false_iff_not
  unfold Geometry.clear Ground.Clear
  rw [zipIdx_lift, List.all_map, List.all_eq_true]
  exact forall₂_congr hone

/-! ## Fences -/

/-- No ring is short of three vertices. -/
def Ground.Rings (g : Ground) : Prop := ∀ ring ∈ g.allowed ++ g.blocked, 3 ≤ ring.length

/-- The blocked rings, each with its margin. -/
def Ground.fences (g : Ground) : List (List (ℝ × ℝ) × ℝ) :=
  g.blocked.zipIdx.map fun x => (x.1, g.margin x.2)

theorem Ground.margins_iff : g.Margins ↔ ∀ f ∈ g.fences, 0 ≤ f.2 := by
  unfold Ground.Margins Ground.fences
  rw [List.forall_mem_map]

theorem Ground.clear_iff (p : ℝ × ℝ) :
    g.Clear ε p ↔ ∀ f ∈ g.fences, ¬ Inside ε f.1 p ∧ ¬ NearRing (f.2 + ε) f.1 p := by
  unfold Ground.Clear Ground.fences
  rw [List.forall_mem_map]

theorem Ground.rings_iff :
    g.Rings ↔ (∀ ring ∈ g.allowed, 3 ≤ ring.length) ∧ ∀ f ∈ g.fences, 3 ≤ f.1.length := by
  have hblocked : (∀ ring ∈ g.blocked, 3 ≤ ring.length) ↔ ∀ f ∈ g.fences, 3 ≤ f.1.length := by
    unfold Ground.fences
    rw [List.forall_mem_map]
    conv_lhs => rw [← List.zipIdx_map_fst 0 g.blocked, List.forall_mem_map]
  unfold Ground.Rings
  rw [List.forall_mem_append, hblocked]

end

end Transit
end Mowgli
