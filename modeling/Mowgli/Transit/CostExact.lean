import Mowgli.Lib.Breaks
import Mowgli.Transit.Planner
import Mowgli.Transit.Reals

/-!
# CostExact — every cell that a segment touches

`costSegmentClear` over exact numbers and with no tolerance. Where a point lies in its cell, or on
which grid lines, does not change between two cuts, so the cuts and the middles of the gaps say
what holds of every point of the segment.
-/

namespace Mowgli
namespace Transit

open Segment

noncomputable section

variable {ulp : ℝ → NNReal}

/-- A costmap in the plane. -/
structure Chart extends Costmap ℝ where
  resolution_pos : 0 < resolution

namespace Chart

variable (m : Chart)

def costmap : Costmap EReal where
  sizeX := m.sizeX
  sizeY := m.sizeY
  resolution := (m.resolution : EReal)
  originX := (m.originX : EReal)
  originY := (m.originY : EReal)
  cost := m.cost

/-- The point is in the map, whose upper edges are open. -/
structure Holds (p : ℝ × ℝ) : Prop where
  left : m.originX ≤ p.1
  right : p.1 < m.originX + m.sizeX * m.resolution
  below : m.originY ≤ p.2
  above : p.2 < m.originY + m.sizeY * m.resolution

/-- The closed square of a cell contains the point. -/
structure Touches (x y : ℕ) (p : ℝ × ℝ) : Prop where
  left : m.originX + x * m.resolution ≤ p.1
  right : p.1 ≤ m.originX + (x + 1) * m.resolution
  below : m.originY + y * m.resolution ≤ p.2
  above : p.2 ≤ m.originY + (y + 1) * m.resolution

/-- Nothing lethal touches the point. -/
def Clear (p : ℝ × ℝ) : Prop := m.Holds p ∧ ∀ x y, m.Touches x y p → m.cost x y < 253

/-- The column and the row of a point, with the part of the cell before it. -/
def col (p : ℝ × ℝ) : ℝ := (p.1 - m.originX) / m.resolution
def row (p : ℝ × ℝ) : ℝ := (p.2 - m.originY) / m.resolution

end Chart

/-! ## One axis -/

section Axis

variable {origin r z k : ℝ}

theorem line_le (hr : 0 < r) : origin + k * r ≤ z ↔ k ≤ (z - origin) / r := by
  rw [le_div_iff₀ hr, le_sub_iff_add_le']

theorem le_line (hr : 0 < r) : z ≤ origin + k * r ↔ (z - origin) / r ≤ k := by
  rw [div_le_iff₀ hr, sub_le_iff_le_add']

theorem lt_line (hr : 0 < r) : z < origin + k * r ↔ (z - origin) / r < k := by
  rw [div_lt_iff₀ hr, sub_lt_iff_lt_add']

variable {g : ℝ}

/-- A cell that touches is the one with the point, or the one before it when the point is on the
line between them. -/
theorem touch_iff (hg : 0 ≤ g) {x : ℕ} :
    ((x : ℝ) ≤ g ∧ g ≤ x + 1) ↔ x = ⌊g⌋₊ ∨ (⌊g⌋₊ : ℝ) = g ∧ x + 1 = ⌊g⌋₊ := by
  have hfloor : (⌊g⌋₊ : ℝ) ≤ g := Nat.floor_le hg
  have hnext : g < ⌊g⌋₊ + 1 := Nat.lt_floor_add_one g
  constructor
  · intro h
    have hle : x ≤ ⌊g⌋₊ := Nat.le_floor h.1
    have hge : ⌊g⌋₊ ≤ x + 1 := by
      have hcast : (⌊g⌋₊ : ℝ) ≤ ((x + 1 : ℕ) : ℝ) := by
        push_cast
        exact le_trans hfloor h.2
      exact Nat.cast_le.1 hcast
    rcases Nat.eq_or_lt_of_le hle with heq | hlt
    · exact Or.inl heq
    · have heq : x + 1 = ⌊g⌋₊ := le_antisymm hlt hge
      refine Or.inr ⟨le_antisymm hfloor ?_, heq⟩
      rw [← heq]
      push_cast
      exact h.2
  · intro h
    rcases h with rfl | ⟨heq, hx⟩
    · exact ⟨hfloor, le_of_lt hnext⟩
    · have hcast : (x : ℝ) + 1 = g := by
        rw [← heq, ← hx]
        push_cast
        rfl
      exact ⟨by linarith, le_of_eq hcast.symm⟩

/-- Nothing to round means a grid line. -/
theorem round_exact (hg : 0 ≤ g) : |g - ⌊g + 1 / 2⌋| ≤ 0 ↔ (⌊g⌋₊ : ℝ) = g := by
  rw [abs_nonpos_iff, sub_eq_zero]
  constructor
  · intro h
    have hk : (0 : ℤ) ≤ ⌊g + 1 / 2⌋ := Int.floor_nonneg.2 (by linarith)
    obtain ⟨n, hn⟩ := Int.eq_ofNat_of_zero_le hk
    rw [hn] at h
    rw [h]
    simp
  · intro h
    have hfloor : ⌊g + 1 / 2⌋ = (⌊g⌋₊ : ℤ) := by
      rw [Int.floor_eq_iff]
      push_cast
      constructor
      · linarith
      · linarith
    rw [hfloor, ← h]
    simp

end Axis

/-! ## One point -/

/-- The four look-ups: the cell, and its neighbours across the lines that the point is on. -/
theorem corners_iff (lethal : ℕ → ℕ → Bool) (onX onY : Bool) (n k : ℕ) :
    (!lethal n k && !(onX && decide (0 < n) && lethal (n - 1) k) &&
        !(onY && decide (0 < k) && lethal n (k - 1)) &&
        !(onX && onY && decide (0 < n) && decide (0 < k) && lethal (n - 1) (k - 1))) = true ↔
      ∀ x y, (x = n ∨ onX = true ∧ x + 1 = n) ∧ (y = k ∨ onY = true ∧ y + 1 = k) →
        lethal x y = false := by
  constructor
  · intro h x y hxy
    simp only [Bool.and_eq_true, Bool.not_eq_true'] at h
    obtain ⟨⟨⟨h1, h2⟩, h3⟩, h4⟩ := h
    rcases hxy with ⟨rfl | ⟨hX, rfl⟩, rfl | ⟨hY, rfl⟩⟩
    · exact h1
    · simpa [hY] using h3
    · simpa [hX] using h2
    · simpa [hX, hY] using h4
  · intro h
    have h1 := h n k ⟨Or.inl rfl, Or.inl rfl⟩
    have h2 : onX = true → 0 < n → lethal (n - 1) k = false := by
      intro hX hn
      exact h (n - 1) k ⟨Or.inr ⟨hX, Nat.sub_add_cancel hn⟩, Or.inl rfl⟩
    have h3 : onY = true → 0 < k → lethal n (k - 1) = false := by
      intro hY hk
      exact h n (k - 1) ⟨Or.inl rfl, Or.inr ⟨hY, Nat.sub_add_cancel hk⟩⟩
    have h4 : onX = true → onY = true → 0 < n → 0 < k → lethal (n - 1) (k - 1) = false := by
      intro hX hY hn hk
      exact h (n - 1) (k - 1)
        ⟨Or.inr ⟨hX, Nat.sub_add_cancel hn⟩, Or.inr ⟨hY, Nat.sub_add_cancel hk⟩⟩
    simp only [Bool.and_eq_true, Bool.not_eq_true', Bool.and_eq_false_imp, decide_eq_true_eq]
    exact ⟨⟨⟨h1, fun h => h2 h.1 h.2⟩, fun h => h3 h.1 h.2⟩,
      fun h => h4 h.1.1.1 h.1.1.2 h.1.2 h.2⟩

namespace Chart

variable (m : Chart)

variable {p : ℝ × ℝ}

variable {m} in
theorem Holds.col_nonneg (h : m.Holds p) : 0 ≤ m.col p :=
  div_nonneg (sub_nonneg.2 h.left) (le_of_lt m.resolution_pos)

variable {m} in
theorem Holds.row_nonneg (h : m.Holds p) : 0 ≤ m.row p :=
  div_nonneg (sub_nonneg.2 h.below) (le_of_lt m.resolution_pos)

open Classical in
variable (ulp) in
theorem worldToMap_lift (p : ℝ × ℝ) :
    m.costmap.worldToMap (realFormat 0 ulp) (lift p) =
      if m.Holds p then some (⌊m.col p⌋₊, ⌊m.row p⌋₊) else none := by
  have htoNat : ∀ z : ℝ, 0 ≤ z → ((realFormat 0 ulp).toInt (z : EReal)).toNat = ⌊z⌋₊ := by
    intro z hz
    show (if 0 ≤ (z : EReal) then ⌊z⌋ else ⌈z⌉).toNat = ⌊z⌋₊
    rw [if_pos (EReal.coe_nonneg.2 hz), Int.floor_toNat]
  unfold Costmap.worldToMap
  simp only [lift_x, lift_y, costmap, real_lt, real_sub, real_div, Bool.or_eq_true,
    decide_eq_true_eq]
  by_cases hlow : p.1 < m.originX ∨ p.2 < m.originY
  · rw [if_pos hlow, if_neg]
    intro h
    rcases hlow with hx | hy
    · exact absurd h.left (not_le.2 hx)
    · exact absurd h.below (not_le.2 hy)
  · rw [not_or, not_lt, not_lt] at hlow
    have hcol : 0 ≤ m.col p := div_nonneg (sub_nonneg.2 hlow.1) (le_of_lt m.resolution_pos)
    have hrow : 0 ≤ m.row p := div_nonneg (sub_nonneg.2 hlow.2) (le_of_lt m.resolution_pos)
    have hholds : m.Holds p ↔ ⌊m.col p⌋₊ < m.sizeX ∧ ⌊m.row p⌋₊ < m.sizeY := by
      rw [Nat.floor_lt hcol, Nat.floor_lt hrow]
      unfold col row
      rw [← lt_line m.resolution_pos, ← lt_line m.resolution_pos]
      constructor
      · intro h
        exact ⟨h.right, h.above⟩
      · intro h
        exact ⟨hlow.1, h.1, hlow.2, h.2⟩
    rw [if_neg (by rw [not_or, not_lt, not_lt]; exact hlow)]
    show (if ((realFormat 0 ulp).toInt (m.col p : EReal)).toNat < m.sizeX ∧
        ((realFormat 0 ulp).toInt (m.row p : EReal)).toNat < m.sizeY then
          some (((realFormat 0 ulp).toInt (m.col p : EReal)).toNat,
            ((realFormat 0 ulp).toInt (m.row p : EReal)).toNat) else none) = _
    rw [htoNat _ hcol, htoNat _ hrow]
    by_cases h : m.Holds p
    · rw [if_pos h, if_pos (hholds.1 h)]
    · rw [if_neg h, if_neg (fun hs => h (hholds.2 hs))]

theorem touches_iff (h : m.Holds p) (x y : ℕ) :
    m.Touches x y p ↔
      (x = ⌊m.col p⌋₊ ∨ (⌊m.col p⌋₊ : ℝ) = m.col p ∧ x + 1 = ⌊m.col p⌋₊) ∧
        (y = ⌊m.row p⌋₊ ∨ (⌊m.row p⌋₊ : ℝ) = m.row p ∧ y + 1 = ⌊m.row p⌋₊) := by
  rw [← touch_iff h.col_nonneg, ← touch_iff h.row_nonneg]
  unfold col row
  rw [← line_le m.resolution_pos, ← line_le m.resolution_pos, ← le_line m.resolution_pos,
    ← le_line m.resolution_pos]
  constructor
  · intro ht
    exact ⟨⟨ht.left, ht.right⟩, ht.below, ht.above⟩
  · intro ht
    exact ⟨ht.1.1, ht.1.2, ht.2.1, ht.2.2⟩

theorem lethal_eq_false (x y : ℕ) : m.costmap.lethal x y = false ↔ m.cost x y < 253 := by
  unfold Costmap.lethal
  rw [decide_eq_false_iff_not, UInt8.not_le]
  rfl

variable (ulp) in
theorem pointClear_lift (p : ℝ × ℝ) :
    m.costmap.pointClear (realFormat 0 ulp) (lift p) = true ↔ m.Clear p := by
  classical
  unfold Costmap.pointClear Clear
  rw [worldToMap_lift]
  by_cases h : m.Holds p
  · rw [if_pos h]
    have hround : ∀ z : ℝ, 0 ≤ z →
        (realFormat 0 ulp).round (z : EReal) = ((⌊z + 1 / 2⌋ : ℝ) : EReal) := by
      intro z hz
      have hhalf : (0.5 : ℝ) = 1 / 2 := by norm_num
      show (if 0 ≤ (z : EReal) then ((⌊z + 0.5⌋ : ℝ) : EReal) else _) = _
      rw [if_pos (EReal.coe_nonneg.2 hz), hhalf]
    have hline : ∀ z : ℝ, 0 ≤ z →
        (realFormat 0 ulp).le ((realFormat 0 ulp).abs ((realFormat 0 ulp).sub (z : EReal)
          ((realFormat 0 ulp).round (z : EReal)))) (kEpsilon (realFormat 0 ulp)) =
          decide ((⌊z⌋₊ : ℝ) = z) := by
      intro z hz
      rw [hround z hz, real_sub, real_abs, real_kEpsilon, real_le]
      exact decide_eq_decide.2 (round_exact hz)
    have hx := hline _ h.col_nonneg
    have hy := hline _ h.row_nonneg
    unfold col at hx
    unfold row at hy
    simp only [lift_x, lift_y, costmap, real_sub, real_div, hx, hy]
    refine (corners_iff m.costmap.lethal _ _ _ _).trans ?_
    simp only [decide_eq_true_eq]
    constructor
    · intro hall
      refine ⟨h, ?_⟩
      intro x y ht
      exact (m.lethal_eq_false x y).1 (hall x y ((m.touches_iff h x y).1 ht))
    · intro hall x y ht
      exact (m.lethal_eq_false x y).2 (hall.2 x y ((m.touches_iff h x y).2 ht))
  · rw [if_neg h]
    simp [h]

end Chart

/-! ## The cuts of one axis -/

section Cuts

variable (start stop origin r : ℝ)

/-- `gridCuts`, in the plane. -/
def lineCuts : List ℝ :=
  if start = stop then []
  else
    let first := ⌊(min start stop - origin) / r⌋
    let last := ⌊(max start stop - origin) / r⌋
    (List.range (last - first).toNat).map fun i : ℕ =>
      (origin + ((first + 1 + i : ℤ) : ℝ) * r - start) / (stop - start)

variable (ulp) in
theorem gridCuts_lift (m : Chart) :
    m.costmap.gridCuts (realFormat 0 ulp) start stop origin =
      (lineCuts start stop origin m.resolution).map (fun t : ℝ => (t : EReal)) := by
  have hline : ∀ z : ℝ, (realFormat 0 ulp).toInt ((realFormat 0 ulp).floor (z : EReal)) = ⌊z⌋ := by
    intro z
    show (if 0 ≤ ((⌊z⌋ : ℝ) : EReal) then ⌊(⌊z⌋ : ℝ)⌋ else ⌈(⌊z⌋ : ℝ)⌉) = ⌊z⌋
    rw [Int.floor_intCast, Int.ceil_intCast, ite_self]
  have hresolution : m.costmap.resolution = (m.resolution : EReal) := rfl
  unfold Costmap.gridCuts lineCuts
  simp only [real_eq, hresolution, real_min, real_max, real_sub, real_div, hline,
    real_lit_intCast, real_mul, real_add]
  by_cases h : start = stop
  · rw [if_pos (decide_eq_true h), if_pos h]
    rfl
  · rw [if_neg (by simpa using h), if_neg h]
    simp only [bind_pure_comp, List.map_eq_map, List.map_map]
    rfl

variable {start stop origin r}

variable {t : ℝ}

/-- Every cut is on the segment. -/
theorem lineCuts_unit (hr : 0 < r) (h : t ∈ lineCuts start stop origin r) : 0 ≤ t ∧ t ≤ 1 := by
  unfold lineCuts at h
  by_cases heq : start = stop
  · rw [if_pos heq] at h
    cases h
  · rw [if_neg heq] at h
    obtain ⟨i, hi, rfl⟩ := List.mem_map.1 h
    rw [List.mem_range] at hi
    have hlow : min start stop ≤
        origin + ((⌊(min start stop - origin) / r⌋ + 1 + i : ℤ) : ℝ) * r := by
      rw [le_line hr]
      have hlt := Int.lt_floor_add_one ((min start stop - origin) / r)
      push_cast
      linarith [(Nat.cast_nonneg i : (0 : ℝ) ≤ i)]
    have hhigh : origin + ((⌊(min start stop - origin) / r⌋ + 1 + i : ℤ) : ℝ) * r ≤
        max start stop := by
      rw [line_le hr, ← Int.le_floor]
      omega
    rcases lt_or_gt_of_ne heq with hlt | hgt
    · rw [min_eq_left (le_of_lt hlt)] at hlow ⊢
      rw [max_eq_right (le_of_lt hlt), min_eq_left (le_of_lt hlt)] at hhigh
      constructor
      · exact div_nonneg (by linarith) (by linarith)
      · rw [div_le_one (by linarith)]
        linarith
    · rw [min_eq_right (le_of_lt hgt)] at hlow ⊢
      rw [max_eq_left (le_of_lt hgt), min_eq_right (le_of_lt hgt)] at hhigh
      constructor
      · exact div_nonneg_of_nonpos (by linarith) (by linarith)
      · rw [div_le_one_of_neg (by linarith)]
        linarith

/-- A grid line met inside the segment is cut. -/
theorem mem_lineCuts (hr : 0 < r) {k : ℤ} (h0 : 0 < t) (h1 : t < 1) (hne : start ≠ stop)
    (ht : start + t * (stop - start) = origin + k * r) : t ∈ lineCuts start stop origin r := by
  have hd : stop - start ≠ 0 := sub_ne_zero.2 (Ne.symm hne)
  have hlow : min start stop < origin + k * r := by
    rw [← ht]
    rcases lt_or_gt_of_ne hne with hlt | hgt
    · rw [min_eq_left (le_of_lt hlt)]
      nlinarith
    · rw [min_eq_right (le_of_lt hgt)]
      nlinarith
  have hhigh : origin + k * r ≤ max start stop := by
    rw [← ht]
    rcases lt_or_gt_of_ne hne with hlt | hgt
    · rw [max_eq_right (le_of_lt hlt)]
      nlinarith
    · rw [max_eq_left (le_of_lt hgt)]
      nlinarith
  have hfirst : ⌊(min start stop - origin) / r⌋ < k := by
    rw [Int.floor_lt]
    exact (lt_line hr).1 hlow
  have hlast : k ≤ ⌊(max start stop - origin) / r⌋ := by
    rw [Int.le_floor]
    exact (line_le hr).1 hhigh
  unfold lineCuts
  rw [if_neg hne]
  refine List.mem_map.2 ⟨(k - ⌊(min start stop - origin) / r⌋ - 1).toNat, ?_, ?_⟩
  · rw [List.mem_range]
    omega
  · have hk : (⌊(min start stop - origin) / r⌋ + 1 +
        ((k - ⌊(min start stop - origin) / r⌋ - 1).toNat : ℤ)) = k := by omega
    rw [hk, ← ht, add_sub_cancel_left, mul_div_cancel_right₀ t hd]

section Gap

variable {ts : List ℝ} (hts : Breaks.Splits ts) (hcuts : ∀ t ∈ lineCuts start stop origin r, t ∈ ts)
  (hr : 0 < r) {e : ℝ × ℝ} (he : e ∈ Breaks.gaps ts) (k : ℤ)

include hts hcuts hr he

theorem line_not_met (ht : Breaks.Within e t) (hne : start ≠ stop) :
    start + t * (stop - start) ≠ origin + k * r := by
  intro hline
  obtain ⟨h1, h2⟩ := Breaks.mem_of_gaps he
  have h0 : 0 < t := lt_of_le_of_lt (hts.unit _ h1).1 ht.1
  have h1 : t < 1 := lt_of_lt_of_le ht.2 (hts.unit _ h2).2
  have hmem : t ∈ ts := hcuts t (mem_lineCuts hr h0 h1 hne hline)
  rcases (Breaks.gaps_spec hts.sorted he).2 t hmem with hle | hle
  · exact absurd ht.1 (not_lt.2 hle)
  · exact absurd ht.2 (not_lt.2 hle)

/-- Inside a gap the coordinate stays past a grid line. -/
theorem line_stays_below {s : ℝ} (hs : Breaks.Within e s) (ht : Breaks.Within e t)
    (h : origin + k * r ≤ start + s * (stop - start)) :
    origin + k * r ≤ start + t * (stop - start) := by
  by_contra hlt
  rw [not_le] at hlt
  have hne : start ≠ stop := by
    intro heq
    rw [heq, sub_self, mul_zero] at h hlt
    exact absurd h (not_le.2 hlt)
  have hd : stop - start ≠ 0 := sub_ne_zero.2 (Ne.symm hne)
  -- the place where the line is met is between the two points, so inside the gap
  have hmeet : Breaks.Within e ((origin + k * r - start) / (stop - start)) := by
    rcases lt_or_gt_of_ne hne with hup | hdown
    · constructor
      · refine lt_trans ht.1 ?_
        rw [lt_div_iff₀ (by linarith)]
        linarith
      · refine lt_of_le_of_lt ?_ hs.2
        rw [div_le_iff₀ (by linarith)]
        linarith
    · constructor
      · refine lt_of_lt_of_le hs.1 ?_
        rw [le_div_iff_of_neg (by linarith)]
        linarith
      · refine lt_trans ?_ ht.2
        rw [div_lt_iff_of_neg (by linarith)]
        linarith
  apply line_not_met hts hcuts hr he k hmeet hne
  rw [div_mul_cancel₀ _ hd]
  ring

theorem line_stays_above {s : ℝ} (hs : Breaks.Within e s) (ht : Breaks.Within e t)
    (h : start + s * (stop - start) ≤ origin + k * r) :
    start + t * (stop - start) ≤ origin + k * r := by
  by_contra hlt
  rw [not_le] at hlt
  have hback := line_stays_below hts hcuts hr he k ht hs (le_of_lt hlt)
  have hne : start ≠ stop := by
    intro heq
    rw [heq, sub_self, mul_zero] at h hlt
    exact absurd h (not_le.2 hlt)
  exact line_not_met hts hcuts hr he k hs hne (le_antisymm h hback)

end Gap

end Cuts

/-! ## The segment -/

namespace Chart

variable (m : Chart) (a b : ℝ × ℝ)

/-- All the cuts of a segment. -/
def cuts : List ℝ :=
  ([0, 1] ++ lineCuts a.1 b.1 m.originX m.resolution ++
    lineCuts a.2 b.2 m.originY m.resolution).insertionSort (· ≤ ·)

theorem mem_cuts (t : ℝ) :
    t ∈ m.cuts a b ↔ (t = 0 ∨ t = 1) ∨ t ∈ lineCuts a.1 b.1 m.originX m.resolution ∨
      t ∈ lineCuts a.2 b.2 m.originY m.resolution := by
  unfold cuts
  rw [List.mem_insertionSort]
  simp only [List.mem_append, List.mem_cons, List.not_mem_nil, or_false, or_assoc]

theorem cuts_splits : Breaks.Splits (m.cuts a b) := by
  refine ⟨List.pairwise_insertionSort _ _, ?_, ?_, ?_⟩
  · exact (m.mem_cuts a b 0).2 (Or.inl (Or.inl rfl))
  · exact (m.mem_cuts a b 1).2 (Or.inl (Or.inr rfl))
  · intro t ht
    rcases (m.mem_cuts a b t).1 ht with (rfl | rfl) | h | h
    · exact ⟨le_refl 0, zero_le_one⟩
    · exact ⟨zero_le_one, le_refl 1⟩
    · exact lineCuts_unit m.resolution_pos h
    · exact lineCuts_unit m.resolution_pos h

/-- What touches a point of a gap touches the others. -/
theorem clear_same {e : ℝ × ℝ} (he : e ∈ Breaks.gaps (m.cuts a b)) {s t : ℝ}
    (hs : Breaks.Within e s) (ht : Breaks.Within e t) (h : m.Clear (along a b s)) :
    m.Clear (along a b t) := by
  have hts := m.cuts_splits a b
  have hr := m.resolution_pos
  have hX : ∀ t ∈ lineCuts a.1 b.1 m.originX m.resolution, t ∈ m.cuts a b := by
    intro t ht
    exact (m.mem_cuts a b t).2 (Or.inr (Or.inl ht))
  have hY : ∀ t ∈ lineCuts a.2 b.2 m.originY m.resolution, t ∈ m.cuts a b := by
    intro t ht
    exact (m.mem_cuts a b t).2 (Or.inr (Or.inr ht))
  obtain ⟨hholds, hclear⟩ := h
  refine ⟨⟨?_, ?_, ?_, ?_⟩, ?_⟩
  · have hline := line_stays_below hts hX hr he 0 hs ht
    simp only [Int.cast_zero, zero_mul, add_zero] at hline
    exact hline hholds.left
  · have hline := line_stays_below hts hX hr he m.sizeX ht hs
    simp only [Int.cast_natCast] at hline
    exact lt_of_not_ge fun hle => absurd hholds.right (not_lt.2 (hline hle))
  · have hline := line_stays_below hts hY hr he 0 hs ht
    simp only [Int.cast_zero, zero_mul, add_zero] at hline
    exact hline hholds.below
  · have hline := line_stays_below hts hY hr he m.sizeY ht hs
    simp only [Int.cast_natCast] at hline
    exact lt_of_not_ge fun hle => absurd hholds.above (not_lt.2 (hline hle))
  · intro x y htouch
    apply hclear
    have hxl := line_stays_below hts hX hr he x ht hs
    have hxr := line_stays_above hts hX hr he (x + 1) ht hs
    have hyl := line_stays_below hts hY hr he y ht hs
    have hyr := line_stays_above hts hY hr he (y + 1) ht hs
    simp only [Int.cast_add, Int.cast_natCast, Int.cast_one] at hxl hxr hyl hyr
    exact ⟨hxl htouch.left, hxr htouch.right, hyl htouch.below, hyr htouch.above⟩

end Chart

/-- The segment is in the map, and every cell that touches it is below the lethal cost. -/
theorem costSegmentClear_exact (m : Chart) (a b : ℝ × ℝ) :
    m.costmap.costSegmentClear (realFormat 0 ulp) (lift a) (lift b) = true ↔
      (∀ p, OnSegment a b p → m.Holds p) ∧
        ∀ x y, (∃ p, OnSegment a b p ∧ m.Touches x y p) → m.cost x y < 253 := by
  have hlist : ([(realFormat 0 ulp).lit 0, (realFormat 0 ulp).lit 1] ++
      m.costmap.gridCuts (realFormat 0 ulp) (lift a).x (lift b).x m.costmap.originX ++
        m.costmap.gridCuts (realFormat 0 ulp) (lift a).y (lift b).y m.costmap.originY) =
      ([0, 1] ++ lineCuts a.1 b.1 m.originX m.resolution ++
        lineCuts a.2 b.2 m.originY m.resolution).map (fun t : ℝ => (t : EReal)) := by
    rw [lift_x, lift_x, lift_y, lift_y, real_lit_zero, real_lit_one,
      show m.costmap.originX = (m.originX : EReal) from rfl,
      show m.costmap.originY = (m.originY : EReal) from rfl, gridCuts_lift, gridCuts_lift,
      List.map_append, List.map_append]
    rfl
  have hpoint : ∀ t : ℝ, m.costmap.pointClear (realFormat 0 ulp)
      (interpolate (realFormat 0 ulp) (lift a) (lift b) (t : EReal)) = true ↔
        m.Clear (along a b t) := by
    intro t
    rw [interpolate_lift, m.pointClear_lift ulp]
  have hsamples : m.costmap.costSegmentClear (realFormat 0 ulp) (lift a) (lift b) = true ↔
      (∀ t ∈ m.cuts a b, m.Clear (along a b t)) ∧
        ∀ e ∈ Breaks.gaps (m.cuts a b), m.Clear (along a b ((e.1 + e.2) / 2)) := by
    unfold Costmap.costSegmentClear
    rw [hlist, sorted_lift]
    simp only [← List.map_tail, List.zip_map, List.map_map, List.all_append, Bool.and_eq_true,
      List.all_map, List.all_eq_true]
    refine and_congr ?_ ?_
    · exact forall₂_congr fun t _ => hpoint t
    · refine forall₂_congr fun e _ => ?_
      show m.costmap.pointClear (realFormat 0 ulp) (interpolate (realFormat 0 ulp) (lift a)
        (lift b) (half (realFormat 0 ulp) (e.1 : EReal) (e.2 : EReal))) = true ↔ _
      rw [half_coe, hpoint]
  rw [hsamples, ← Breaks.forall_unit_iff (m.cuts_splits a b)]
  · constructor
    · intro h
      constructor
      · rintro p ⟨t, h0, h1, rfl⟩
        exact (h t h0 h1).1
      · rintro x y ⟨p, ⟨t, h0, h1, rfl⟩, htouch⟩
        exact (h t h0 h1).2 x y htouch
    · intro h t h0 h1
      refine ⟨h.1 _ ⟨t, h0, h1, rfl⟩, ?_⟩
      intro x y htouch
      exact h.2 x y ⟨_, ⟨t, h0, h1, rfl⟩, htouch⟩
  · intro e he t ht hmid
    have hmiddle : Breaks.Within e ((e.1 + e.2) / 2) := Breaks.within_half (lt_trans ht.1 ht.2)
    exact m.clear_same a b he hmiddle ht hmid

end

end Transit
end Mowgli
