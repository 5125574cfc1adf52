import Mowgli.Transit.Reals

/-!
# RasterExact — the grid says of a cell what the geometry says of its centre

Over exact numbers. A cell is visited for a ring when its centre is odd for the ring, or near an
edge of it: the ranges leave out only cells whose centres are outside the box that was asked for.
What the rings do to a cell is then one `if`, whatever their order.
-/

namespace Mowgli
namespace Transit

open Segment

noncomputable section

variable {ε : ℝ} {ulp : ℝ → NNReal}

def liftGrid (grid : RasterGrid ℝ) : RasterGrid EReal where
  width := grid.width
  height := grid.height
  resolution := (grid.resolution : EReal)
  originX := (grid.originX : EReal)
  originY := (grid.originY : EReal)

/-- The middle of a cell. -/
def middle (grid : RasterGrid ℝ) (x y : ℕ) : ℝ × ℝ :=
  (grid.originX + (x + 1 / 2) * grid.resolution, grid.originY + (y + 1 / 2) * grid.resolution)

theorem centre_lift (grid : RasterGrid ℝ) (x y : ℕ) :
    (liftGrid grid).centre (realFormat ε ulp) x y = lift (middle grid x y) := by
  unfold RasterGrid.centre liftGrid middle lift
  simp only [real_lit_natCast, real_lit_half, real_add, real_mul]

/-! ## Ranges -/

section Cell

variable {x : ℝ} {i last : ℕ}

variable (ε ulp) in
/-- The index that a column or row number is clamped and truncated to. -/
def cellIndex (x : ℝ) (last : ℕ) : ℕ :=
  ((realFormat ε ulp).toInt
    ((realFormat ε ulp).clamp (x : EReal) ((0 : ℝ) : EReal) ((last : ℝ) : EReal))).toNat

variable (ε ulp) in
/-- The number that `cellIndex` truncates. -/
theorem cellIndex_eq (x : ℝ) (last : ℕ) :
    ∃ c : ℝ, cellIndex ε ulp x last = ⌊c⌋.toNat ∧ (∀ i : ℕ, (i : ℝ) ≤ x → i ≤ last → (i : ℝ) ≤ c) ∧
      ∀ i : ℕ, x ≤ i → c ≤ i := by
  have htoInt : ∀ c : ℝ, 0 ≤ c → (realFormat ε ulp).toInt (c : EReal) = ⌊c⌋ := by
    intro c hc
    show (if 0 ≤ (c : EReal) then ⌊c⌋ else ⌈c⌉) = ⌊c⌋
    rw [if_pos (EReal.coe_nonneg.2 hc)]
  unfold cellIndex Arith.clamp
  rw [real_lt, real_lt]
  by_cases hlow : x < 0
  · refine ⟨0, ?_, ?_, ?_⟩
    · rw [if_pos (decide_eq_true hlow), htoInt 0 (le_refl 0)]
    · intro i hi _
      linarith
    · intro i _
      exact Nat.cast_nonneg i
  · rw [if_neg (by simpa using hlow)]
    by_cases hhigh : (last : ℝ) < x
    · refine ⟨last, ?_, ?_, ?_⟩
      · rw [if_pos (decide_eq_true hhigh), htoInt _ (Nat.cast_nonneg last)]
      · intro i _ hi
        exact Nat.cast_le.2 hi
      · intro i hi
        linarith
    · refine ⟨x, ?_, ?_, ?_⟩
      · rw [if_neg (by simpa using hhigh), htoInt x (not_lt.1 hlow)]
      · intro i hi _
        exact hi
      · intro i hi
        exact hi

variable (ε ulp) in
theorem le_cellIndex (hi : i ≤ last) (h : (i : ℝ) ≤ x) : i ≤ cellIndex ε ulp x last := by
  obtain ⟨c, hc, habove, -⟩ := cellIndex_eq ε ulp x last
  have hfloor : (i : ℤ) ≤ ⌊c⌋ := Int.le_floor.2 (by simpa using habove i h hi)
  rw [hc]
  omega

variable (ε ulp last) in
theorem cellIndex_le (h : x ≤ i) : cellIndex ε ulp x last ≤ i := by
  obtain ⟨c, hc, -, hbelow⟩ := cellIndex_eq ε ulp x last
  rw [hc, Int.toNat_le]
  exact Int.cast_le.1 (le_trans (Int.floor_le c) (by simpa using hbelow i h))

end Cell

variable (ε ulp) in
/-- A cell whose centre is between the bounds is a candidate, whatever the resolution. -/
theorem mem_range (grid : RasterGrid ℝ) {lo hi origin : ℝ} {i size : ℕ} (hi' : i < size)
    (hlo : lo ≤ origin + (i + 1 / 2) * grid.resolution)
    (hhi : origin + (i + 1 / 2) * grid.resolution ≤ hi) :
    i ∈ (liftGrid grid).range (realFormat ε ulp) lo hi origin size := by
  have hnext : (realFormat ε ulp).next (origin : EReal) = ((origin + ulp origin : ℝ) : EReal) :=
    (EReal.coe_add origin (ulp origin)).symm
  have hresolution : (liftGrid grid).resolution = (grid.resolution : EReal) := rfl
  have hfloor : ∀ z : ℝ, (realFormat ε ulp).floor (z : EReal) = ((⌊z⌋ : ℝ) : EReal) := fun _ => rfl
  unfold RasterGrid.range
  simp only [hresolution, hnext, real_sub, real_le]
  by_cases hcoarse : grid.resolution ≤ origin + ulp origin - origin
  · rw [if_pos (decide_eq_true hcoarse)]
    exact List.mem_range.2 hi'
  · rw [if_neg (by simpa using hcoarse)]
    have hpos : 0 < grid.resolution := by
      have hulp : (0 : ℝ) ≤ ulp origin := (ulp origin).2
      linarith [not_le.1 hcoarse]
    simp only [real_div, hfloor, real_lit_one, real_lit_zero, real_sub, real_add,
      real_lit_natCast]
    -- half a cell to each side is more than the floor loses
    have hfirst : (⌊(lo - origin) / grid.resolution⌋ : ℝ) - 1 ≤ i := by
      have hle : (lo - origin) / grid.resolution ≤ i + 1 / 2 := by
        rw [div_le_iff₀ hpos]
        linarith
      linarith [Int.floor_le ((lo - origin) / grid.resolution)]
    have hlast : (i : ℝ) ≤ (⌊(hi - origin) / grid.resolution⌋ : ℝ) + 1 := by
      have hle : i + 1 / 2 ≤ (hi - origin) / grid.resolution := by
        rw [le_div_iff₀ hpos]
        linarith
      linarith [Int.lt_floor_add_one ((hi - origin) / grid.resolution)]
    have h1 := cellIndex_le ε ulp (size - 1) hfirst
    have h2 := le_cellIndex ε ulp (Nat.le_sub_one_of_lt hi') hlast
    unfold cellIndex at h1 h2
    rw [List.mem_range'_1]
    omega

/-! ## What a ring visits -/

section Visits

variable (grid : RasterGrid ℝ) (ring : List (ℝ × ℝ)) {x y : ℕ}

variable (ε ulp) in
/-- The number of crossings past a centre is what the ray meets. -/
theorem countP_crossings (p : ℝ × ℝ) :
    (((edges (liftRing ring)).filter fun e =>
        spansRow (realFormat ε ulp) (p.2 : EReal) e.1 e.2).map fun e =>
          crossing (realFormat ε ulp) (p.2 : EReal) e.1 e.2).countP
            (fun c => (realFormat ε ulp).lt (p.1 : EReal) c) =
      (Polygon.edges ring).countP (Polygon.crosses p) := by
  rw [List.countP_map, List.countP_filter, edges_lift, List.countP_map]
  apply List.countP_congr
  intro e _
  show ((realFormat ε ulp).lt (p.1 : EReal)
      (crossing (realFormat ε ulp) (p.2 : EReal) (lift e.1) (lift e.2)) &&
    spansRow (realFormat ε ulp) (p.2 : EReal) (lift e.1) (lift e.2)) = true ↔ _
  rw [spansRow_lift, crossing_lift, real_lt, Bool.and_comm]
  rfl

variable (ε ulp) in
theorem finite_crossings (y : ℝ) :
    (((edges (liftRing ring)).filter fun e =>
        spansRow (realFormat ε ulp) (y : EReal) e.1 e.2).map fun e =>
          crossing (realFormat ε ulp) (y : EReal) e.1 e.2).all (realFormat ε ulp).isFinite =
      true := by
  rw [List.all_eq_true]
  intro c hc
  obtain ⟨e, he, rfl⟩ := List.mem_map.1 hc
  have hmem := List.mem_of_mem_filter he
  rw [edges_lift] at hmem
  obtain ⟨e', -, rfl⟩ := List.mem_map.1 hmem
  show (realFormat ε ulp).isFinite
    (crossing (realFormat ε ulp) (y : EReal) (lift e'.1) (lift e'.2)) = true
  rw [crossing_lift, real_isFinite]

variable (ε ulp) {grid ring} in
theorem mem_rasterInside (hring : 3 ≤ ring.length) (hx : x < grid.width) (hy : y < grid.height) :
    (x, y) ∈ rasterInside (realFormat ε ulp) (liftRing ring) (liftGrid grid) ↔
      Polygon.oddAt ring (middle grid x y) = true := by
  have hne : ring ≠ [] := by
    intro h
    rw [h] at hring
    cases hring
  obtain ⟨lo, hi, hbounds, hbox⟩ := bounds_lift ε ulp hne
  have hlen : ¬ (liftRing ring).length < 3 := by
    rw [liftRing, List.length_map]
    exact not_lt.2 hring
  have hrow : ((liftGrid grid).centre (realFormat ε ulp) 0 y).y = ((middle grid x y).2 : EReal) := by
    rw [centre_lift]
    rfl
  unfold rasterInside
  rw [if_neg hlen]
  simp only [hbounds, lift_x, lift_y, List.mem_flatMap, List.mem_map, List.mem_filter,
    Prod.mk.injEq]
  constructor
  · intro h
    obtain ⟨y', -, x', ⟨-, htest⟩, rfl, rfl⟩ := h
    rw [hrow, finite_crossings, if_pos rfl, centre_lift, lift_x, countP_crossings] at htest
    exact htest
  · intro h
    obtain ⟨⟨hx0, hx1⟩, hy0, hy1⟩ := hbox.inBox_iff.1 (Polygon.box_of_oddAt h)
    rw [sub_zero] at hx0 hy0
    rw [add_zero] at hx1 hy1
    refine ⟨y, mem_range ε ulp grid hy hy0 hy1, x, ⟨mem_range ε ulp grid hx hx0 hx1, ?_⟩, rfl,
      rfl⟩
    rw [hrow, finite_crossings, if_pos rfl, centre_lift, lift_x, countP_crossings]
    exact h

variable (ε ulp) {grid} in
theorem mem_rasterEdges (hx : x < grid.width) (hy : y < grid.height) (radius : ℝ)
    (closedBoundary : Bool) :
    (x, y) ∈ rasterEdges (realFormat ε ulp) (liftRing ring) (liftGrid grid) radius closedBoundary ↔
      NearRing radius ring (middle grid x y) := by
  unfold rasterEdges
  rw [edges_lift]
  simp only [List.flatMap_map, List.mem_flatMap, List.mem_map, List.mem_filter, Prod.mk.injEq,
    liftEdge, lift_x, lift_y, real_min, real_max, real_sub, real_add, centre_lift,
    edgeDistance_lift, between, real_le, Bool.and_eq_true, decide_eq_true_eq]
  constructor
  · intro h
    obtain ⟨e, he, y', -, x', ⟨-, -, hle⟩, rfl, rfl⟩ := h
    exact ⟨e, he, hle⟩
  · intro h
    obtain ⟨e, he, hle⟩ := h
    obtain ⟨⟨hx0, hx1⟩, hy0, hy1⟩ := Polygon.between_of_edgeDist hle
    refine ⟨e, he, y, mem_range ε ulp grid hy hy0 hy1, x,
      ⟨mem_range ε ulp grid hx hx0 hx1, ?_, hle⟩, rfl, rfl⟩
    simp [hx0, hx1, hy0, hy1]

end Visits

/-! ## The grid -/

/-- What a list of marks leaves in a cell. -/
theorem mark_apply (value : Bool) (allowed : ℕ → ℕ → Bool) (cells : List (ℕ × ℕ)) (x y : ℕ) :
    mark value allowed cells x y = if (x, y) ∈ cells then value else allowed x y := by
  unfold mark
  induction cells generalizing allowed with
  | nil => simp
  | cons cell cells ih =>
    rw [List.foldl_cons, ih]
    by_cases hrest : (x, y) ∈ cells
    · simp [hrest]
    · by_cases hcell : x = cell.1 ∧ y = cell.2
      · have hhead : (x, y) = cell := Prod.ext hcell.1 hcell.2
        rw [if_neg hrest, if_pos hcell, if_pos (hhead ▸ List.mem_cons_self)]
      · have hhead : (x, y) ≠ cell := by
          intro h
          exact hcell ⟨congrArg Prod.fst h, congrArg Prod.snd h⟩
        simp [hrest, hcell, hhead]

open Classical in
/-- A cell keeps its value unless some ring visits it. -/
theorem foldl_mark {α : Type} (value : Bool) (within near : α → List (ℕ × ℕ)) (rings : List α)
    (allowed : ℕ → ℕ → Bool) (x y : ℕ) :
    rings.foldl (fun allowed ring => mark value (mark value allowed (within ring)) (near ring))
        allowed x y =
      if ∃ ring ∈ rings, (x, y) ∈ within ring ∨ (x, y) ∈ near ring then value
      else allowed x y := by
  induction rings generalizing allowed with
  | nil => simp
  | cons ring rings ih =>
    rw [List.foldl_cons, ih, mark_apply, mark_apply]
    by_cases hrest : ∃ ring ∈ rings, (x, y) ∈ within ring ∨ (x, y) ∈ near ring
    · have hall : ∃ r ∈ ring :: rings, (x, y) ∈ within r ∨ (x, y) ∈ near r := by
        obtain ⟨r, hr, h⟩ := hrest
        exact ⟨r, List.mem_cons_of_mem _ hr, h⟩
      rw [if_pos hrest, if_pos hall]
    · rw [if_neg hrest]
      by_cases hnear : (x, y) ∈ near ring
      · rw [if_pos hnear, if_pos ⟨ring, List.mem_cons_self, Or.inr hnear⟩]
      · by_cases hwithin : (x, y) ∈ within ring
        · rw [if_neg hnear, if_pos hwithin, if_pos ⟨ring, List.mem_cons_self, Or.inl hwithin⟩]
        · rw [if_neg hnear, if_neg hwithin, if_neg]
          intro h
          obtain ⟨r, hr, h⟩ := h
          rcases List.mem_cons.1 hr with rfl | hr
          · exact h.elim hwithin hnear
          · exact hrest ⟨r, hr, h⟩

/-- The same rings with the same margins, in any order. -/
structure Ground.Reordered (g g' : Ground) : Prop where
  allowed : g'.allowed.Perm g.allowed
  fences : g'.fences.Perm g.fences

variable {g g' : Ground} {grid : RasterGrid ℝ} {x y : ℕ}

theorem Ground.Reordered.margins (h : g.Reordered g') (hg : g.Margins) : g'.Margins := by
  rw [Ground.margins_iff] at hg ⊢
  intro f hf
  exact hg f (h.fences.mem_iff.1 hf)

theorem Ground.Reordered.rings (h : g.Reordered g') (hg : g.Rings) : g'.Rings := by
  rw [Ground.rings_iff] at hg ⊢
  exact ⟨fun ring hring => hg.1 ring (h.allowed.mem_iff.1 hring),
    fun f hf => hg.2 f (h.fences.mem_iff.1 hf)⟩

theorem Ground.Reordered.says (h : g.Reordered g') (p : ℝ × ℝ) :
    (g'.Authorized ε p ↔ g.Authorized ε p) ∧ (g'.Clear ε p ↔ g.Clear ε p) := by
  rw [Ground.clear_iff, Ground.clear_iff]
  unfold Ground.Authorized
  constructor
  · simp only [h.allowed.mem_iff]
  · simp only [h.fences.mem_iff]

/-- A ring allows the cells whose centres are inside it. -/
theorem allows_iff {ring : List (ℝ × ℝ)} (hring : 3 ≤ ring.length) (hx : x < grid.width)
    (hy : y < grid.height) :
    ((x, y) ∈ rasterInside (realFormat ε ulp) (liftRing ring) (liftGrid grid) ∨
        (x, y) ∈ rasterEdges (realFormat ε ulp) (liftRing ring) (liftGrid grid)
          (kEpsilon (realFormat ε ulp)) true) ↔
      Inside ε ring (middle grid x y) := by
  rw [mem_rasterInside ε ulp hring hx hy, real_kEpsilon, mem_rasterEdges ε ulp ring hx hy]
  unfold Inside
  constructor
  · intro h
    exact ⟨hring, h.symm⟩
  · intro h
    exact h.2.symm

/-- A ring blocks the cells whose centres are not clear of it. The boundary, which `rasterInside`
leaves out, is within any margin. -/
theorem blocks_iff {ring : List (ℝ × ℝ)} (hring : 3 ≤ ring.length) (hx : x < grid.width)
    (hy : y < grid.height) {m : ℝ} (hm : 0 ≤ m) :
    ((x, y) ∈ rasterInside (realFormat ε ulp) (liftRing ring) (liftGrid grid) ∨
        (x, y) ∈ rasterEdges (realFormat ε ulp) (liftRing ring) (liftGrid grid)
          ((realFormat ε ulp).add (m : EReal) (kEpsilon (realFormat ε ulp))) false) ↔
      Inside ε ring (middle grid x y) ∨ NearRing (m + ε) ring (middle grid x y) := by
  rw [mem_rasterInside ε ulp hring hx hy, real_kEpsilon, real_add,
    mem_rasterEdges ε ulp ring hx hy]
  unfold Inside
  constructor
  · intro h
    exact h.imp_left fun hodd => ⟨hring, Or.inr hodd⟩
  · intro h
    rcases h with ⟨-, hnear | hodd⟩ | hnear
    · exact Or.inr (hnear.mono (by linarith))
    · exact Or.inl hodd
    · exact Or.inr hnear

/-- What the rings leave in a cell: blocking wins. -/
theorem raster_iff (hg : g.Margins) (hrings : g.Rings) (hx : x < grid.width)
    (hy : y < grid.height) :
    rasterAuthorization (realFormat ε ulp) g.geometry (liftGrid grid) x y = true ↔
      g.Authorized ε (middle grid x y) ∧ g.Clear ε (middle grid x y) := by
  obtain ⟨hallowed, hfences⟩ := g.rings_iff.1 hrings
  have hblocked : ∀ r ∈ g.blocked.zipIdx, 3 ≤ r.1.length := by
    intro r hr
    exact hfences _ (List.mem_map_of_mem hr)
  have hsome : (∃ ring ∈ g.geometry.allowed,
      (x, y) ∈ rasterInside (realFormat ε ulp) ring (liftGrid grid) ∨
        (x, y) ∈ rasterEdges (realFormat ε ulp) ring (liftGrid grid)
          (kEpsilon (realFormat ε ulp)) true) ↔ g.Authorized ε (middle grid x y) := by
    unfold Ground.Authorized Ground.geometry
    simp only [List.mem_map, exists_exists_and_eq_and]
    exact exists_congr fun ring => and_congr_right fun hring =>
      allows_iff (hallowed ring hring) hx hy
  have hnone : (∃ ring ∈ g.geometry.blocked.zipIdx,
      (x, y) ∈ rasterInside (realFormat ε ulp) ring.1 (liftGrid grid) ∨
        (x, y) ∈ rasterEdges (realFormat ε ulp) ring.1 (liftGrid grid)
          ((realFormat ε ulp).add (g.geometry.margin ring.2) (kEpsilon (realFormat ε ulp)))
          false) ↔ ¬ g.Clear ε (middle grid x y) := by
    unfold Ground.Clear
    rw [zipIdx_lift]
    simp only [List.mem_map, exists_exists_and_eq_and]
    push Not
    refine exists_congr fun r => and_congr_right fun hr => ?_
    rw [margin_lift, blocks_iff (hblocked r hr) hx hy (hg r hr)]
    exact or_iff_not_imp_left
  unfold rasterAuthorization
  rw [foldl_mark, foldl_mark]
  by_cases hclear : g.Clear ε (middle grid x y)
  · rw [if_neg (fun h => hnone.1 h hclear)]
    by_cases hauthorized : g.Authorized ε (middle grid x y)
    · rw [if_pos (hsome.2 hauthorized)]
      simp [hauthorized, hclear]
    · rw [if_neg (fun h => hauthorized (hsome.1 h))]
      simp [hauthorized]
  · rw [if_pos (hnone.2 hclear)]
    simp [hclear]

/-- The grid is the test of each centre; no range leaves out a cell that a ring changes; and the
rings may come in any order. -/
theorem rasterAuthorization_exact (hε : 0 ≤ ε) {g : Ground} (hg : g.Margins) (hrings : g.Rings)
    (grid : RasterGrid ℝ) :
    (∀ x y, x < grid.width → y < grid.height →
      rasterAuthorization (realFormat ε ulp) g.geometry (liftGrid grid) x y =
        (g.geometry.authorized (realFormat ε ulp)
            ((liftGrid grid).centre (realFormat ε ulp) x y) &&
          g.geometry.clear (realFormat ε ulp)
            ((liftGrid grid).centre (realFormat ε ulp) x y))) ∧
    (∀ x y, x < grid.width → y < grid.height →
      (∀ ring ∈ g.geometry.allowed,
        inside (realFormat ε ulp) ((liftGrid grid).centre (realFormat ε ulp) x y) ring = true →
          (x, y) ∈ rasterInside (realFormat ε ulp) ring (liftGrid grid) ∨
            (x, y) ∈ rasterEdges (realFormat ε ulp) ring (liftGrid grid)
              (kEpsilon (realFormat ε ulp)) true) ∧
      ∀ ring ∈ g.geometry.blocked.zipIdx,
        (realFormat ε ulp).le
            (ringDistance (realFormat ε ulp)
              ((liftGrid grid).centre (realFormat ε ulp) x y) ring.1)
            ((realFormat ε ulp).add (g.geometry.margin ring.2) (kEpsilon (realFormat ε ulp))) =
          true →
          (x, y) ∈ rasterInside (realFormat ε ulp) ring.1 (liftGrid grid) ∨
            (x, y) ∈ rasterEdges (realFormat ε ulp) ring.1 (liftGrid grid)
              ((realFormat ε ulp).add (g.geometry.margin ring.2) (kEpsilon (realFormat ε ulp)))
              false) ∧
    ∀ g', g.Reordered g' → ∀ x y, x < grid.width → y < grid.height →
      rasterAuthorization (realFormat ε ulp) g'.geometry (liftGrid grid) x y =
        rasterAuthorization (realFormat ε ulp) g.geometry (liftGrid grid) x y := by
  obtain ⟨hallowed, hfences⟩ := g.rings_iff.1 hrings
  refine ⟨?_, ?_, ?_⟩
  · intro x y hx hy
    rw [Bool.eq_iff_iff, raster_iff hg hrings hx hy, centre_lift, Bool.and_eq_true,
      authorized_lift, clear_lift hε hg]
  · intro x y hx hy
    constructor
    · intro ring hring hin
      obtain ⟨vertices, hmem, rfl⟩ := List.mem_map.1 hring
      rw [centre_lift, inside_lift] at hin
      exact (allows_iff (hallowed vertices hmem) hx hy).2 hin
    · intro ring hring hle
      rw [zipIdx_lift] at hring
      obtain ⟨r, hr, rfl⟩ := List.mem_map.1 hring
      have hm : 0 ≤ g.margin r.2 := hg r hr
      have hlen : 3 ≤ r.1.length := hfences _ (List.mem_map_of_mem hr)
      rw [margin_lift] at hle ⊢
      rw [centre_lift, real_kEpsilon, real_add] at hle
      exact (blocks_iff hlen hx hy hm).2
        ((ringDistance_lift ulp r.1 _ (add_nonneg hm hε)).1 (of_decide_eq_true hle))
  · intro g' h x y hx hy
    obtain ⟨hauthorized, hclear⟩ := h.says (ε := ε) (middle grid x y)
    rw [Bool.eq_iff_iff, raster_iff (h.margins hg) (h.rings hrings) hx hy,
      raster_iff hg hrings hx hy, hauthorized, hclear]

/-- A square with a triangle cut out of it. -/
def notched : Ground where
  allowed := [[(0, 0), (4, 0), (4, 4), (0, 4)]]
  blocked := [[(1, 1), (2, 1), (1, 2)]]
  blockedMargins := [1 / 2]

/-- The centre of the cell lies on the long edge of the triangle. -/
theorem rasterAuthorization_exact_notched :
    rasterAuthorization (realFormat 0 0) notched.geometry (liftGrid ⟨4, 4, 1, 0, 0⟩) 1 1 =
      false := by
  have hmargins : notched.Margins := by
    intro x hx
    obtain rfl : x = ([(1, 1), (2, 1), (1, 2)], 0) := by simpa [notched] using hx
    show (0 : ℝ) ≤ 1 / 2
    norm_num
  have hrings : notched.Rings := by
    intro ring hring
    rcases List.mem_append.1 hring with h | h
    · rw [List.mem_singleton.1 h]
      decide
    · rw [List.mem_singleton.1 h]
      decide
  have hmiddle : middle ⟨4, 4, 1, 0, 0⟩ 1 1 = ((3 / 2, 3 / 2) : ℝ × ℝ) := by
    unfold middle
    norm_num
  have hnot : ¬ notched.Clear 0 (3 / 2, 3 / 2) := by
    intro h
    refine (h ([(1, 1), (2, 1), (1, 2)], 0) List.mem_cons_self).2 ⟨((2, 1), (1, 2)), by
      simp [Polygon.edges], ?_⟩
    have hon : Polygon.edgeDist ((3 / 2, 3 / 2) : ℝ × ℝ) ((2, 1), (1, 2)) ≤ 0 := by
      refine Polygon.edgeDist_le_zero.2 ⟨1 / 2, by norm_num, by norm_num, ?_⟩
      unfold along
      norm_num
    exact le_trans hon (by norm_num [Ground.margin, notched])
  rw [(rasterAuthorization_exact (le_refl 0) hmargins hrings ⟨4, 4, 1, 0, 0⟩).1 1 1 (by decide)
    (by decide), Bool.and_eq_false_iff, centre_lift, hmiddle]
  refine Or.inr (Bool.eq_false_iff.2 fun h => hnot ?_)
  exact (clear_lift (le_refl 0) hmargins _).1 h

end

end Transit
end Mowgli
