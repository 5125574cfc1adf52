import Mowgli.Lib.Layers
import Mathlib.Data.Rat.Floor
import Mathlib.Algebra.Order.BigOperators.Group.List

/-!
# OffsetLattice — the lateral-offset profile planner of the avoidance

A lattice of (station along the path) × (lateral offset), searched by dynamic programming: hard
critics remove nodes, soft critics price them, and a table of costs and parents is filled
station by station. Numbers are exact here, and so are the integers the columns are counted in.

`fits` connects the table with `Layers`, which has the argument about parents and costs;
`planOffsetProfile_optimal` reads it as a statement about offsets.
-/

namespace Mowgli
namespace Ftc

structure OffsetLatticeCfg where
  offsetStep : ℚ := 5 / 100
  maxOffset : ℚ := 15 / 10
  wArea : ℚ := 1
  wSmooth : ℚ := 2 / 10
  wSideSwitch : ℚ := 2
  wTerminal : ℚ := 5 / 10

structure OffsetLatticeResult where
  feasible : Bool := false
  offsets : List ℚ := []
  cost : ℚ := 0

/-- `std::lround`: to the nearest integer, halves away from zero. -/
def lround (x : ℚ) : ℤ := if 0 ≤ x then ⌊x + 1 / 2⌋ else ⌈x - 1 / 2⌉

/-- One element of `cost` and `parent`. No cost is infinity, no parent is −1. -/
structure Cell where
  cost : Option ℚ := none
  parent : Option ℕ := none
deriving DecidableEq

section

variable (cfg : OffsetLatticeCfg)

def half : ℕ := ⌊cfg.maxOffset / cfg.offsetStep + 1 / 10 ^ 9⌋.toNat

def width : ℕ := 2 * half cfg + 1

def offsetOf (k : ℕ) : ℚ := ((k : ℚ) - half cfg) * cfg.offsetStep

/-- `start_k`: the column nearest to the offset applied now, clamped to the lattice. -/
def startColumn (startOffset : ℚ) : ℕ :=
  min (width cfg - 1) ((half cfg : ℤ) + lround (startOffset / cfg.offsetStep)).toNat

/-- The columns one lattice step away, in the order of the loop. -/
def neighbours (k : ℕ) : List ℕ := List.range' (k - 1) (min (width cfg - 1) (k + 1) + 1 - (k - 1))

def sign (offset : ℚ) : ℤ := if 0 < offset then 1 else if offset < 0 then -1 else 0

variable (stations : List ℚ) (startOffset : ℚ) (preferredSign : ℤ) (blocked : ℕ → ℚ → Bool)

/-- `ds` of station `i`. -/
def spacing (i : ℕ) : ℚ := max 0 (stations.getD i 0 - stations.getD (i - 1) 0)

/-- What being at an offset costs: the area left unmown, and more on the other side. -/
def nodeCost (i : ℕ) (offset : ℚ) : ℚ :=
  let node := cfg.wArea * |offset| * spacing stations i
  if preferredSign ≠ 0 ∧ sign offset ≠ 0 ∧ sign offset ≠ preferredSign then
    node + cfg.wSideSwitch * |offset| * spacing stations i
  else node

/-- The candidates to enter column `k` from: cost so far with the move, and the parent. -/
def candidates (previous : List Cell) (k : ℕ) : List (ℚ × ℕ) :=
  (neighbours cfg k).filterMap (fun pk =>
    (previous.getD pk {}).cost.map
      (fun c => (c + cfg.wSmooth * |offsetOf cfg k - offsetOf cfg pk|, pk)))

def cheaper (a b : ℚ × ℕ) : Bool := decide (a.1 < b.1)

/-- The cell of station `i` and column `k`, from the row of the station before. -/
def cell (i : ℕ) (previous : List Cell) (k : ℕ) : Cell :=
  match (candidates cfg previous k).foldl (pick cheaper) none with
  | none => {}
  | some (best, bestParent) =>
    if blocked i (offsetOf cfg k) then {}
    else
      { cost := some (best + nodeCost cfg stations preferredSign i (offsetOf cfg k))
        parent := some bestParent }

/-- The rows of `cost` and `parent`. -/
def row : ℕ → List Cell
  | 0 => (List.range (width cfg)).map (fun k =>
      if k = startColumn cfg startOffset then { cost := some 0 } else {})
  | i + 1 => (List.range (width cfg)).map
      (fun k => cell cfg stations preferredSign blocked (i + 1) (row i) k)

/-- A column of the last row with what is left to come back from. -/
def ends (last : List Cell) : List (ℚ × ℕ) :=
  (List.range (width cfg)).filterMap (fun k =>
    (last.getD k {}).cost.map (fun c => (c + cfg.wTerminal * |offsetOf cfg k|, k)))

/-- Ties go to the smaller offset. -/
def better (a b : ℚ × ℕ) : Bool :=
  decide (a.1 < b.1 - 1 / 10 ^ 12) ||
    (decide (|a.1 - b.1| ≤ 1 / 10 ^ 12) && decide (|offsetOf cfg a.2| < |offsetOf cfg b.2|))

/-- `result.offsets`, read back from the parents. -/
def backtrack : ℕ → ℕ → List ℚ
  | 0, k => [offsetOf cfg k]
  | i + 1, k =>
    backtrack i (((row cfg stations startOffset preferredSign blocked (i + 1)).getD k {}).parent.getD
      0) ++ [offsetOf cfg k]

def planOffsetProfile : OffsetLatticeResult :=
  if stations = [] ∨ cfg.offsetStep ≤ 0 ∨ cfg.maxOffset < 0 then {}
  else
    match (ends cfg (row cfg stations startOffset preferredSign blocked
        (stations.length - 1))).foldl (pick (better cfg)) none with
    | none => {}
    | some (endCost, endK) =>
      { feasible := true
        offsets := backtrack cfg stations startOffset preferredSign blocked (stations.length - 1)
          endK
        cost := endCost }

/-! ## What is planned: a sequence of lattice offsets, and its price -/

/-- Offsets from the first station on: they start where the robot is, move one lattice step per
station at most, and are clear at every station after the first. -/
structure IsPath (offsets : List ℚ) : Prop where
  start : offsets.head? = some (offsetOf cfg (startColumn cfg startOffset))
  lattice : ∀ o ∈ offsets, ∃ k < width cfg, o = offsetOf cfg k
  slope : ∀ i a b, offsets[i]? = some a → offsets[i + 1]? = some b → |b - a| ≤ cfg.offsetStep
  clear : ∀ i o, offsets[i + 1]? = some o → blocked (i + 1) o = false

/-- A profile has an offset for each station. -/
structure IsProfile (offsets : List ℚ) : Prop extends IsPath cfg startOffset blocked offsets where
  length : offsets.length = stations.length

/-- The price of going from one offset to the next, which is at station `i`. -/
def stepCost (i : ℕ) (a b : ℚ) : ℚ :=
  cfg.wSmooth * |b - a| + nodeCost cfg stations preferredSign i b

/-- The price of the steps of a profile. -/
def pathCost (offsets : List ℚ) : ℚ :=
  ((List.range (offsets.length - 1)).map (fun i =>
    stepCost cfg stations preferredSign (i + 1) (offsets.getD i 0) (offsets.getD (i + 1) 0))).sum

/-- Area, smoothness, side switches, and what is left at the end. -/
def profileCost (offsets : List ℚ) : ℚ :=
  pathCost cfg stations preferredSign offsets + cfg.wTerminal * |offsets.getLastD 0|

/-! ## The columns of the lattice -/

theorem offsetOf_sub (a b : ℕ) :
    offsetOf cfg b - offsetOf cfg a = ((b : ℚ) - a) * cfg.offsetStep := by
  unfold offsetOf
  ring

/-- Two columns are one lattice step apart when their offsets are. -/
theorem slope_iff (hstep : 0 < cfg.offsetStep) (a b : ℕ) :
    |offsetOf cfg b - offsetOf cfg a| ≤ cfg.offsetStep ↔ b ≤ a + 1 ∧ a ≤ b + 1 := by
  rw [offsetOf_sub, abs_mul, abs_of_pos hstep]
  have hone : |(b : ℚ) - a| * cfg.offsetStep ≤ cfg.offsetStep ↔ |(b : ℚ) - a| ≤ 1 := by
    constructor
    · intro h
      exact le_of_mul_le_mul_right (by rwa [one_mul]) hstep
    · intro h
      calc |(b : ℚ) - a| * cfg.offsetStep ≤ 1 * cfg.offsetStep :=
            mul_le_mul_of_nonneg_right h (le_of_lt hstep)
        _ = cfg.offsetStep := one_mul _
  rw [hone, abs_le]
  constructor
  · intro h
    have hb : (b : ℚ) ≤ ((a + 1 : ℕ) : ℚ) := by push_cast; linarith [h.2]
    have ha : (a : ℚ) ≤ ((b + 1 : ℕ) : ℚ) := by push_cast; linarith [h.1]
    exact ⟨Nat.cast_le.1 hb, Nat.cast_le.1 ha⟩
  · intro h
    have hb : (b : ℚ) ≤ ((a + 1 : ℕ) : ℚ) := Nat.cast_le.2 h.1
    have ha : (a : ℚ) ≤ ((b + 1 : ℕ) : ℚ) := Nat.cast_le.2 h.2
    push_cast at hb ha
    constructor
    · linarith
    · linarith

theorem startColumn_lt : startColumn cfg startOffset < width cfg := by
  have hwidth : 0 < width cfg := by unfold width; omega
  unfold startColumn
  omega

variable {k : ℕ} {x : ℚ × ℕ}

theorem mem_neighbours {pk : ℕ} (hk : k < width cfg) :
    pk ∈ neighbours cfg k ↔ pk < width cfg ∧ k ≤ pk + 1 ∧ pk ≤ k + 1 := by
  unfold neighbours
  rw [List.mem_range'_1]
  omega

theorem mem_candidates {previous : List Cell} :
    x ∈ candidates cfg previous k ↔ x.2 ∈ neighbours cfg k ∧
      ∃ c, (previous.getD x.2 {}).cost = some c ∧
        x.1 = c + cfg.wSmooth * |offsetOf cfg k - offsetOf cfg x.2| := by
  unfold candidates
  rw [List.mem_filterMap]
  constructor
  · intro h
    obtain ⟨pk, hpk, hx⟩ := h
    obtain ⟨c, hc, rfl⟩ := Option.map_eq_some_iff.1 hx
    exact ⟨hpk, c, hc, rfl⟩
  · intro h
    obtain ⟨hpk, c, hc, hx⟩ := h
    exact ⟨x.2, hpk, by rw [hc, Option.map_some, ← hx]⟩

theorem mem_ends {last : List Cell} :
    x ∈ ends cfg last ↔ x.2 < width cfg ∧
      ∃ c, (last.getD x.2 {}).cost = some c ∧ x.1 = c + cfg.wTerminal * |offsetOf cfg x.2| := by
  unfold ends
  rw [List.mem_filterMap]
  constructor
  · intro h
    obtain ⟨k, hk, hx⟩ := h
    obtain ⟨c, hc, rfl⟩ := Option.map_eq_some_iff.1 hx
    exact ⟨List.mem_range.1 hk, c, hc, rfl⟩
  · intro h
    obtain ⟨hk, c, hc, hx⟩ := h
    exact ⟨x.2, List.mem_range.2 hk, by rw [hc, Option.map_some, ← hx]⟩

theorem length_ends (last : List Cell) : (ends cfg last).length ≤ width cfg := by
  unfold ends
  calc _ ≤ (List.range (width cfg)).length := List.length_filterMap_le _ _
    _ = width cfg := List.length_range

theorem ranks_cheaper : Ranks cheaper (fun x : ℚ × ℕ => x.1) 0 where
  nonneg := le_refl 0
  of_better := by
    intro a b h
    rw [add_zero]
    exact le_of_lt (of_decide_eq_true h)
  of_not_better := by
    intro a b h
    rw [add_zero]
    exact not_lt.1 (of_decide_eq_false h)

theorem ranks_better : Ranks (better cfg) (fun x : ℚ × ℕ => x.1) (1 / 10 ^ 12) where
  nonneg := by norm_num
  of_better := by
    intro a b h
    have hslack : (0 : ℚ) ≤ 1 / 10 ^ 12 := by norm_num
    unfold better at h
    rw [Bool.or_eq_true, Bool.and_eq_true] at h
    rcases h with h | h
    · have := of_decide_eq_true h
      linarith
    · have := (abs_le.1 (of_decide_eq_true h.1)).2
      linarith
  of_not_better := by
    intro a b h
    unfold better at h
    rw [Bool.or_eq_false_iff] at h
    have := of_decide_eq_false h.1
    linarith

/-! ## The table, and the walks it is about -/

/-- The lattice as a layered graph. -/
def lattice : Layered ℕ ℚ where
  start := startColumn cfg startOffset
  enter := fun i m n =>
    if m < width cfg ∧ n < width cfg ∧ (n ≤ m + 1 ∧ m ≤ n + 1) ∧
        blocked (i + 1) (offsetOf cfg n) = false then
      some (stepCost cfg stations preferredSign (i + 1) (offsetOf cfg m) (offsetOf cfg n))
    else none

/-- The rows as a table. -/
def table : Table ℕ ℚ where
  cost := fun i k =>
    ((row cfg stations startOffset preferredSign blocked i).getD k {}).cost
  parent := fun i k =>
    ((row cfg stations startOffset preferredSign blocked i).getD k {}).parent.getD 0

theorem row_zero_cost (k : ℕ) :
    (table cfg stations startOffset preferredSign blocked).cost 0 k =
      if k = startColumn cfg startOffset then some 0 else none := by
  have hlt := startColumn_lt cfg startOffset
  by_cases hk : k < width cfg
  · simp only [table, row, List.getD_eq_getElem?_getD, List.getElem?_map,
      List.getElem?_range hk, Option.map_some, Option.getD_some]
    split
    · rfl
    · rfl
  · have hne : k ≠ startColumn cfg startOffset := by omega
    rw [if_neg hne]
    simp [table, row, List.getD_eq_getElem?_getD, hk]

theorem row_succ_getD (i : ℕ) (hk : k < width cfg) :
    (row cfg stations startOffset preferredSign blocked (i + 1)).getD k {} =
      cell cfg stations preferredSign blocked (i + 1)
        (row cfg stations startOffset preferredSign blocked i) k := by
  simp only [row, List.getD_eq_getElem?_getD, List.getElem?_map, List.getElem?_range hk,
    Option.map_some, Option.getD_some]

theorem cost_lt {i : ℕ} {c : ℚ}
    (h : (table cfg stations startOffset preferredSign blocked).cost i k = some c) :
    k < width cfg := by
  by_contra hk
  cases i with
  | zero => simp [table, row, List.getD_eq_getElem?_getD, hk] at h
  | succ i => simp [table, row, List.getD_eq_getElem?_getD, hk] at h

/-- Everything a cell can be. -/
theorem cell_cases (i : ℕ) (previous : List Cell) (k : ℕ) :
    (cell cfg stations preferredSign blocked i previous k = {} ∧
      (candidates cfg previous k = [] ∨ blocked i (offsetOf cfg k) = true)) ∨
    ∃ best parent, cell cfg stations preferredSign blocked i previous k =
        { cost := some (best + nodeCost cfg stations preferredSign i (offsetOf cfg k))
          parent := some parent } ∧
      blocked i (offsetOf cfg k) = false ∧ (best, parent) ∈ candidates cfg previous k ∧
      ∀ x ∈ candidates cfg previous k, best ≤ x.1 := by
  unfold cell
  rcases ranks_cheaper.picked (candidates cfg previous k) with
    ⟨hnone, hnil⟩ | ⟨⟨best, parent⟩, hsome, hmem, hle⟩
  · rw [hnone]
    exact Or.inl ⟨rfl, Or.inl hnil⟩
  · rw [hsome]
    cases hblocked : blocked i (offsetOf cfg k) with
    | true => exact Or.inl ⟨by simp, Or.inr rfl⟩
    | false =>
      refine Or.inr ⟨best, parent, by simp, rfl, hmem, ?_⟩
      intro x hx
      simpa using hle x hx

theorem fits : (table cfg stations startOffset preferredSign blocked).Fits
    (lattice cfg stations startOffset preferredSign blocked) where
  start := by
    rw [row_zero_cost]
    exact if_pos rfl
  only := by
    intro k c hc
    rw [row_zero_cost] at hc
    split at hc
    · rename_i hk
      exact ⟨hk, (Option.some.inj hc).symm⟩
    · cases hc
  attained := by
    intro i k c hc
    have hk := cost_lt cfg stations startOffset preferredSign blocked hc
    have hcell := row_succ_getD cfg stations startOffset preferredSign blocked i hk
    simp only [table] at hc ⊢
    rw [hcell] at hc ⊢
    rcases cell_cases cfg stations preferredSign blocked (i + 1)
        (row cfg stations startOffset preferredSign blocked i) k with
      ⟨hempty, _⟩ | ⟨best, parent, heq, hclear, hmem, _⟩
    · rw [hempty] at hc
      cases hc
    · rw [heq] at hc ⊢
      obtain ⟨hpk, b, hb, hbest⟩ := (mem_candidates cfg).1 hmem
      obtain ⟨hlt, hadj⟩ := (mem_neighbours cfg hk).1 hpk
      refine ⟨b, _, hb, if_pos ⟨hlt, hk, hadj, hclear⟩, ?_⟩
      rw [← Option.some.inj hc]
      change best = b + cfg.wSmooth * |offsetOf cfg k - offsetOf cfg parent| at hbest
      show best + nodeCost cfg stations preferredSign (i + 1) (offsetOf cfg k) =
        b + (cfg.wSmooth * |offsetOf cfg k - offsetOf cfg parent| +
          nodeCost cfg stations preferredSign (i + 1) (offsetOf cfg k))
      rw [hbest]
      ring
  least := by
    intro i m k b d hb hd
    simp only [lattice] at hd
    split at hd
    · rename_i hedge
      obtain ⟨hm, hk, hadj, hclear⟩ := hedge
      have hcell := row_succ_getD cfg stations startOffset preferredSign blocked i hk
      simp only [table] at hb ⊢
      rw [hcell]
      have hmem : (b + cfg.wSmooth * |offsetOf cfg k - offsetOf cfg m|, m) ∈
          candidates cfg (row cfg stations startOffset preferredSign blocked i) k :=
        (mem_candidates cfg).2 ⟨(mem_neighbours cfg hk).2 ⟨hm, hadj⟩, b, hb, rfl⟩
      rcases cell_cases cfg stations preferredSign blocked (i + 1)
          (row cfg stations startOffset preferredSign blocked i) k with
        ⟨_, hnil | hblocked⟩ | ⟨best, parent, heq, _, _, hle⟩
      · rw [hnil] at hmem
        cases hmem
      · rw [hclear] at hblocked
        cases hblocked
      · refine ⟨_, by rw [heq], ?_⟩
        have hbest := hle _ hmem
        rw [← Option.some.inj hd]
        unfold stepCost
        linarith
    · cases hd

/-! ## Walks of columns are paths of offsets -/

variable {cfg stations startOffset preferredSign blocked}

/-- The offsets of a walk, first station first. -/
def offsetsOf (cfg : OffsetLatticeCfg) (walk : List ℕ) : List ℚ :=
  walk.reverse.map (offsetOf cfg)

@[simp] theorem offsetsOf_cons (k : ℕ) (walk : List ℕ) :
    offsetsOf cfg (k :: walk) = offsetsOf cfg walk ++ [offsetOf cfg k] := by
  simp [offsetsOf]

@[simp] theorem length_offsetsOf (walk : List ℕ) :
    (offsetsOf cfg walk).length = walk.length := by
  simp [offsetsOf]

theorem backtrack_eq (i k : ℕ) :
    backtrack cfg stations startOffset preferredSign blocked i k =
      offsetsOf cfg ((table cfg stations startOffset preferredSign blocked).trace i k) := by
  induction i generalizing k with
  | zero => rfl
  | succ i ih =>
    show backtrack cfg stations startOffset preferredSign blocked i _ ++ [offsetOf cfg k] =
      offsetsOf cfg (k :: _)
    rw [offsetsOf_cons, ih]
    rfl

/-- A path with one more offset. -/
theorem isPath_snoc {xs : List ℚ} {a b : ℚ} :
    IsPath cfg startOffset blocked (xs ++ [a] ++ [b]) ↔
      IsPath cfg startOffset blocked (xs ++ [a]) ∧ (∃ k < width cfg, b = offsetOf cfg k) ∧
        |b - a| ≤ cfg.offsetStep ∧ blocked (xs.length + 1) b = false := by
  have hlen : (xs ++ [a]).length = xs.length + 1 := by simp
  have hlast : (xs ++ [a] ++ [b])[xs.length + 1]? = some b := by
    rw [← hlen, List.getElem?_concat_length]
  have hbefore : ∀ (i : ℕ) (x : ℚ), (xs ++ [a])[i]? = some x → (xs ++ [a] ++ [b])[i]? = some x := by
    intro i x hx
    obtain ⟨hi, _⟩ := List.getElem?_eq_some_iff.1 hx
    rw [List.getElem?_append_left hi, hx]
  -- an entry of the longer list is the new one, or one of the old ones
  have hsplit : ∀ (i : ℕ) (x : ℚ), (xs ++ [a] ++ [b])[i]? = some x →
      (i = xs.length + 1 ∧ x = b) ∨ (i < xs.length + 1 ∧ (xs ++ [a])[i]? = some x) := by
    intro i x hx
    obtain ⟨hi, _⟩ := List.getElem?_eq_some_iff.1 hx
    by_cases hlt : i < xs.length + 1
    · rw [List.getElem?_append_left (by omega)] at hx
      exact Or.inr ⟨hlt, hx⟩
    · have heq : i = xs.length + 1 := by
        simp only [List.length_append, List.length_singleton] at hi
        omega
      rw [heq, hlast] at hx
      exact Or.inl ⟨heq, (Option.some.inj hx).symm⟩
  have hhead : (xs ++ [a] ++ [b]).head? = (xs ++ [a]).head? := by
    cases xs with
    | nil => rfl
    | cons x xs => rfl
  constructor
  · intro h
    refine ⟨⟨hhead ▸ h.start, ?_, ?_, ?_⟩, h.lattice b (by simp), ?_, h.clear _ _ hlast⟩
    · intro o ho
      exact h.lattice o (List.mem_append_left _ ho)
    · intro i x y hx hy
      exact h.slope i x y (hbefore i x hx) (hbefore (i + 1) y hy)
    · intro i o ho
      exact h.clear i o (hbefore (i + 1) o ho)
    · exact h.slope xs.length a b (hbefore _ _ List.getElem?_concat_length) hlast
  · intro h
    obtain ⟨hpath, hlattice, hslope, hclear⟩ := h
    refine ⟨hhead.trans hpath.start, ?_, ?_, ?_⟩
    · intro o ho
      rcases List.mem_append.1 ho with ho | ho
      · exact hpath.lattice o ho
      · rw [List.mem_singleton.1 ho]
        exact hlattice
    · intro i x y hx hy
      rcases hsplit (i + 1) y hy with ⟨hi, rfl⟩ | ⟨hi, hy⟩
      · have hxi : (xs ++ [a] ++ [y])[xs.length]? = some x := by
          rw [← Nat.succ.inj hi]
          exact hx
        rw [hbefore _ _ List.getElem?_concat_length] at hxi
        rw [← Option.some.inj hxi]
        exact hslope
      · rcases hsplit i x hx with ⟨hi', _⟩ | ⟨_, hx⟩
        · omega
        · exact hpath.slope i x y hx hy
    · intro i o ho
      rcases hsplit (i + 1) o ho with ⟨hi, rfl⟩ | ⟨_, ho⟩
      · rw [hi]
        exact hclear
      · exact hpath.clear i o ho

theorem isPath_start (o : ℚ) : IsPath cfg startOffset blocked [o] ↔
    o = offsetOf cfg (startColumn cfg startOffset) := by
  constructor
  · intro h
    exact Option.some.inj h.start
  · intro h
    refine ⟨congrArg some h, ?_, ?_, ?_⟩
    · intro x hx
      rw [List.mem_singleton.1 hx]
      exact ⟨_, startColumn_lt cfg startOffset, h⟩
    · intro i a b _ hb
      simp at hb
    · intro i x hx
      simp at hx

/-- The price of a path with one more offset. -/
theorem pathCost_snoc (xs : List ℚ) (a b : ℚ) :
    pathCost cfg stations preferredSign (xs ++ [a] ++ [b]) =
      pathCost cfg stations preferredSign (xs ++ [a]) +
        stepCost cfg stations preferredSign (xs.length + 1) a b := by
  have hold : ∀ i < xs.length, stepCost cfg stations preferredSign (i + 1)
      ((xs ++ [a] ++ [b]).getD i 0) ((xs ++ [a] ++ [b]).getD (i + 1) 0) =
        stepCost cfg stations preferredSign (i + 1)
          ((xs ++ [a]).getD i 0) ((xs ++ [a]).getD (i + 1) 0) := by
    intro i hi
    have hleft : ∀ j < xs.length + 1, (xs ++ [a] ++ [b]).getD j 0 = (xs ++ [a]).getD j 0 := by
      intro j hj
      rw [List.getD_eq_getElem?_getD, List.getElem?_append_left (by simpa using hj),
        ← List.getD_eq_getElem?_getD]
    rw [hleft i (by omega), hleft (i + 1) (by omega)]
  have hnew : stepCost cfg stations preferredSign (xs.length + 1)
      ((xs ++ [a] ++ [b]).getD xs.length 0) ((xs ++ [a] ++ [b]).getD (xs.length + 1) 0) =
        stepCost cfg stations preferredSign (xs.length + 1) a b := by
    congr 1
    · simp [List.getD_eq_getElem?_getD]
    · simp [List.getD_eq_getElem?_getD]
  have hlen : (xs ++ [a] ++ [b]).length - 1 = xs.length + 1 := by simp
  have hlen' : (xs ++ [a]).length - 1 = xs.length := by simp
  unfold pathCost
  rw [hlen, hlen', List.range_succ, List.map_append, List.sum_append]
  congr 1
  · congr 1
    apply List.map_congr_left
    intro i hi
    exact hold i (List.mem_range.1 hi)
  · rw [List.map_singleton, List.sum_singleton]
    exact hnew

/-- A walk through the lattice is a path, and its price is the path's. -/
theorem walk_isPath (hstep : 0 < cfg.offsetStep) {walk : List ℕ} {c : ℚ}
    (h : (lattice cfg stations startOffset preferredSign blocked).Walk walk c) :
    IsPath cfg startOffset blocked (offsetsOf cfg walk) ∧
      c = pathCost cfg stations preferredSign (offsetsOf cfg walk) := by
  induction h with
  | start => exact ⟨(isPath_start _).2 rfl, rfl⟩
  | @step m n w c d _ hd ih =>
    obtain ⟨hpath, hcost⟩ := ih
    simp only [lattice] at hd
    split at hd
    · rename_i hedge
      obtain ⟨_, hn, hadj, hclear⟩ := hedge
      rw [offsetsOf_cons] at hpath hcost
      rw [offsetsOf_cons, offsetsOf_cons, pathCost_snoc, ← hcost, length_offsetsOf]
      refine ⟨isPath_snoc.2 ⟨hpath, ⟨n, hn, rfl⟩, (slope_iff cfg hstep m n).2 hadj, ?_⟩, ?_⟩
      · rw [length_offsetsOf]
        exact hclear
      · rw [← Option.some.inj hd]
    · cases hd

variable (stations preferredSign) in
/-- And every path is one. -/
theorem isPath_walk (hstep : 0 < cfg.offsetStep) {offsets : List ℚ}
    (h : IsPath cfg startOffset blocked offsets) :
    ∃ k w, (lattice cfg stations startOffset preferredSign blocked).Walk (k :: w)
      (pathCost cfg stations preferredSign offsets) ∧ offsets = offsetsOf cfg (k :: w) := by
  induction offsets using List.reverseRecOn with
  | nil => cases h.start
  | append_singleton xs b ih =>
    rcases List.eq_nil_or_concat xs with rfl | ⟨ys, a, rfl⟩
    · have hb := (isPath_start b).1 h
      exact ⟨_, [], .start, congrArg (fun o => [o]) hb⟩
    · rw [List.concat_eq_append] at h ih ⊢
      obtain ⟨hpath, ⟨k, hk, rfl⟩, hslope, hclear⟩ := isPath_snoc.1 h
      obtain ⟨m, w, hwalk, heq⟩ := ih hpath
      rw [offsetsOf_cons] at heq
      obtain ⟨rfl, hone⟩ := List.append_inj' heq rfl
      obtain rfl : a = offsetOf cfg m := by simpa using hone
      rw [length_offsetsOf] at hclear
      have hm : m < width cfg := by
        obtain ⟨b', hb', _⟩ := (fits cfg stations startOffset preferredSign blocked).le hwalk
        exact cost_lt cfg stations startOffset preferredSign blocked hb'
      refine ⟨k, m :: w, ?_, by rw [offsetsOf_cons, offsetsOf_cons]⟩
      rw [pathCost_snoc, length_offsetsOf]
      exact .step hwalk (if_pos ⟨hm, hk, (slope_iff cfg hstep m k).1 hslope, hclear⟩)

/-! ## The plan -/

theorem profileCost_cons (k : ℕ) (w : List ℕ) :
    profileCost cfg stations preferredSign (offsetsOf cfg (k :: w)) =
      pathCost cfg stations preferredSign (offsetsOf cfg (k :: w)) +
        cfg.wTerminal * |offsetOf cfg k| := by
  unfold profileCost
  rw [offsetsOf_cons, List.getLastD_eq_getLast?, List.getLast?_concat, Option.getD_some]

variable (preferredSign) in
/-- Every profile ends in a column the last row has a price for, which is no more than its own. -/
theorem profile_end (hstep : 0 < cfg.offsetStep) {offsets : List ℚ}
    (h : IsProfile cfg stations startOffset blocked offsets) :
    ∃ x ∈ ends cfg (row cfg stations startOffset preferredSign blocked (stations.length - 1)),
      x.1 ≤ profileCost cfg stations preferredSign offsets := by
  obtain ⟨k, w, hwalk, rfl⟩ := isPath_walk stations preferredSign hstep h.toIsPath
  have hlen : w.length = stations.length - 1 := by
    have := h.length
    rw [length_offsetsOf, List.length_cons] at this
    omega
  obtain ⟨b, hb, hle⟩ := (fits cfg stations startOffset preferredSign blocked).le hwalk
  rw [hlen] at hb
  have hk := cost_lt cfg stations startOffset preferredSign blocked hb
  refine ⟨(b + cfg.wTerminal * |offsetOf cfg k|, k), (mem_ends cfg).2 ⟨hk, b, hb, rfl⟩, ?_⟩
  rw [profileCost_cons]
  linarith

/-- What is read back from the column the plan ends in. -/
theorem backtrack_profile (hstep : 0 < cfg.offsetStep) (hstations : stations ≠ [])
    (hx : x ∈ ends cfg (row cfg stations startOffset preferredSign blocked
      (stations.length - 1))) :
    IsProfile cfg stations startOffset blocked
        (backtrack cfg stations startOffset preferredSign blocked (stations.length - 1) x.2) ∧
      profileCost cfg stations preferredSign
        (backtrack cfg stations startOffset preferredSign blocked (stations.length - 1) x.2) =
        x.1 := by
  obtain ⟨_, c, hc, hcost⟩ := (mem_ends cfg).1 hx
  have hwalk := (fits cfg stations startOffset preferredSign blocked).walk hc
  obtain ⟨w, htrace, hlen⟩ := (table cfg stations startOffset preferredSign blocked).trace_eq_cons
    (stations.length - 1) x.2
  have hpos : 0 < stations.length := List.length_pos_iff.2 hstations
  rw [backtrack_eq, htrace]
  rw [htrace] at hwalk
  obtain ⟨hpath, hprice⟩ := walk_isPath hstep hwalk
  refine ⟨⟨hpath, ?_⟩, ?_⟩
  · rw [length_offsetsOf, List.length_cons, hlen]
    omega
  · rw [profileCost_cons, hcost, ← hprice]

/-- The plan is feasible just where some profile is, and then it is one, at the cost it
reports; another is cheaper by the tie tolerance of each lattice column at most. -/
theorem planOffsetProfile_optimal (hstep : 0 < cfg.offsetStep) (hmax : 0 ≤ cfg.maxOffset) :
    ((planOffsetProfile cfg stations startOffset preferredSign blocked).feasible = true ↔
      ∃ offsets, IsProfile cfg stations startOffset blocked offsets) ∧
    ((planOffsetProfile cfg stations startOffset preferredSign blocked).feasible = true →
      IsProfile cfg stations startOffset blocked
        (planOffsetProfile cfg stations startOffset preferredSign blocked).offsets ∧
      profileCost cfg stations preferredSign
          (planOffsetProfile cfg stations startOffset preferredSign blocked).offsets =
        (planOffsetProfile cfg stations startOffset preferredSign blocked).cost ∧
      ∀ offsets, IsProfile cfg stations startOffset blocked offsets →
        (planOffsetProfile cfg stations startOffset preferredSign blocked).cost ≤
          profileCost cfg stations preferredSign offsets + 1 / 10 ^ 12 * width cfg) := by
  by_cases hstations : stations = []
  · have hnone : ¬ ∃ offsets, IsProfile cfg stations startOffset blocked offsets := by
      intro h
      obtain ⟨offsets, h⟩ := h
      have hnil : offsets = [] := List.length_eq_zero_iff.1 (by rw [h.length, hstations]; rfl)
      have hstart := h.start
      rw [hnil] at hstart
      cases hstart
    have hplan : planOffsetProfile cfg stations startOffset preferredSign blocked = {} :=
      if_pos (Or.inl hstations)
    rw [hplan]
    constructor
    · constructor
      · intro h
        cases h
      · intro h
        exact absurd h hnone
    · intro h
      cases h
  · have hguard : ¬ (stations = [] ∨ cfg.offsetStep ≤ 0 ∨ cfg.maxOffset < 0) := by
      intro h
      rcases h with h | h | h
      · exact hstations h
      · exact absurd hstep (not_lt.2 h)
      · exact absurd hmax (not_le.2 h)
    unfold planOffsetProfile
    rw [if_neg hguard]
    rcases (ranks_better cfg).picked (ends cfg
        (row cfg stations startOffset preferredSign blocked (stations.length - 1))) with
      ⟨hnone, hnil⟩ | ⟨x, hsome, hmem, hle⟩
    · rw [hnone]
      constructor
      · constructor
        · intro h
          cases h
        · intro h
          obtain ⟨offsets, h⟩ := h
          obtain ⟨x, hx, _⟩ := profile_end preferredSign hstep h
          rw [hnil] at hx
          cases hx
      · intro h
        cases h
    · rw [hsome]
      obtain ⟨hprofile, hcost⟩ := backtrack_profile hstep hstations hmem
      refine ⟨⟨fun _ => ⟨_, hprofile⟩, fun _ => rfl⟩, fun _ => ⟨hprofile, hcost, ?_⟩⟩
      intro offsets h
      obtain ⟨y, hy, hyle⟩ := profile_end preferredSign hstep h
      have hwidth : ((ends cfg (row cfg stations startOffset preferredSign blocked
          (stations.length - 1))).length : ℚ) ≤ width cfg :=
        Nat.cast_le.2 (length_ends cfg _)
      have hxy := hle y hy
      show x.1 ≤ _
      linarith [mul_le_mul_of_nonneg_left hwidth (by norm_num : (0 : ℚ) ≤ 1 / 10 ^ 12)]

/-- An obstacle beside the line at the second of three stations. -/
theorem planOffsetProfile_optimal_skirt :
    (planOffsetProfile {} [0, 1, 2] 0 0 (fun i o => i == 1 && decide (o = 0))).feasible = true ↔
      ∃ offsets, IsProfile {} [0, 1, 2] 0 (fun i o => i == 1 && decide (o = 0)) offsets :=
  (planOffsetProfile_optimal (by norm_num) (by norm_num)).1

end

end Ftc
end Mowgli
