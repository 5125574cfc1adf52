import Mathlib.Data.List.Pairwise
import Mowgli.Lib.Segment
import Mowgli.Map.Cells
import Mowgli.Map.Areas

/-!
# Covered — the rasteriser covers what the test of one cell accepts

Over the numbers of an ordered field. The crossings of one row are sorted and counted from the
right, which agrees with the ray cast because a closed polygon crosses a row an even number of
times: left of the first crossing nothing is inside.
-/

namespace Mowgli
namespace Map

section Field

variable {K : Type} [Field K] [LinearOrder K]

/-- A format without rounding. -/
def fieldArith (rest : Arith K) : Arith K :=
  { rest with
    lit := fun q => (q : K)
    add := (· + ·)
    sub := (· - ·)
    mul := (· * ·)
    div := (· / ·)
    lt := fun x y => decide (x < y)
    le := fun x y => decide (x ≤ y)
    eq := fun x y => decide (x = y) }

def fieldFloats (rest : Floats K K) : Floats K K :=
  { rest with
    single := fieldArith rest.single
    double := fieldArith rest.double
    widen := id
    narrow := id }

/-- The axes of a grid run in the decreasing direction. -/
structure GridAxes (K : Type) [LinearOrder K] extends CellAxes K where
  rowsDecrease : xOfRow.Pairwise fun u v => v ≤ u
  colsDecrease : yOfCol.Pairwise fun u v => v ≤ u

variable {rest : Floats K K}

/-- No index between two values is lost. -/
theorem contains_coveringRange {axis : List K} (hdec : axis.Pairwise fun u v => v ≤ u) {i : Nat}
    {v lo hi : K} (hv : axis[i]? = some v) (hlo : lo ≤ v) (hhi : v ≤ hi) :
    (coveringRange (fieldFloats rest) axis lo hi).contains i = true := by
  obtain ⟨hi', -⟩ := List.getElem?_eq_some_iff.1 hv
  have hne : axis.isEmpty = false := by
    cases axis with
    | nil => cases hv
    | cons _ _ => rfl
  have hle : (fieldFloats rest).double.le lo hi = true := decide_eq_true (hlo.trans hhi)
  have hfirst : (axis.takeWhile fun u => decide (hi < u)).length ≤ i :=
    Parity.length_takeWhile_le hv (decide_eq_false (not_lt.2 hhi))
  have hlast : i < (axis.takeWhile fun u => decide (lo ≤ u)).length := by
    refine Parity.lt_length_takeWhile ?_ hv (decide_eq_true hlo)
    exact hdec.imp fun huv h => decide_eq_true ((of_decide_eq_true h).trans huv)
  unfold coveringRange
  dsimp only
  rw [hne, hle, if_neg (by simp)]
  unfold IndexRange.contains
  rw [Bool.and_eq_true, decide_eq_true_eq, decide_eq_true_eq]
  constructor
  · show (if ((axis.takeWhile fun u => decide (hi < u)).length : Int) - 1 < 0 then (0 : Int)
      else ((axis.takeWhile fun u => decide (hi < u)).length : Int) - 1) ≤ i
    split <;> omega
  · show (i : Int) ≤ (if ((axis.takeWhile fun u => decide (lo ≤ u)).length : Int) <
        (axis.length : Int) - 1 then
      ((axis.takeWhile fun u => decide (lo ≤ u)).length : Int) else (axis.length : Int) - 1)
    split <;> omega

/-! ## The crossings of a row -/

/-- The line at `y` crosses the edge. -/
def spans (y : K) (e : Point32 K × Point32 K) : Bool :=
  decide (y < e.2.y) != decide (y < e.1.y)

def crossing (y : K) (e : Point32 K × Point32 K) : K :=
  (e.1.x - e.2.x) * (y - e.2.y) / (e.1.y - e.2.y) + e.2.x

variable {polygon : Polygon K}

theorem pointInPolygon_eq (hlong : 3 ≤ polygon.length) (x y : K) :
    pointInPolygon (fieldFloats rest) x y polygon =
      Parity.odd ((edges polygon).countP fun e => spans y e && decide (x < crossing y e)) := by
  unfold pointInPolygon
  dsimp only
  rw [if_neg (by omega)]
  exact (Parity.foldl_toggle _ _ _).trans (by simp only [Bool.false_bne]; rfl)

theorem rowCrossings_eq (hlong : 3 ≤ polygon.length) (y : K) :
    rowCrossings (fieldFloats rest) polygon y =
      ((edges polygon).filterMap fun e =>
        if spans y e = true then some (crossing y e) else none).mergeSort
          fun a b => !decide (b < a) := by
  unfold rowCrossings
  dsimp only
  rw [if_neg (by omega)]
  rfl

theorem rowCrossings_perm (hlong : 3 ≤ polygon.length) (y : K) :
    (rowCrossings (fieldFloats rest) polygon y).Perm
      ((edges polygon).filterMap fun e =>
        if spans y e = true then some (crossing y e) else none) := by
  rw [rowCrossings_eq hlong]
  exact List.mergeSort_perm _ _

theorem rowCrossings_sorted (rest : Floats K K) (hlong : 3 ≤ polygon.length) (y : K) :
    (rowCrossings (fieldFloats rest) polygon y).Pairwise (· ≤ ·) := by
  rw [rowCrossings_eq hlong]
  have hle : ∀ a b : K, (!decide (b < a)) = true ↔ a ≤ b := by
    intro a b
    simp
  refine (List.pairwise_mergeSort ?_ ?_ _).imp fun {a b} h => (hle a b).1 h
  · intro a b c hab hbc
    exact (hle a c).2 (((hle a b).1 hab).trans ((hle b c).1 hbc))
  · intro a b
    rw [Bool.or_eq_true, hle, hle]
    exact le_total a b

theorem countP_rowCrossings (rest : Floats K K) (hlong : 3 ≤ polygon.length) (x y : K) :
    (rowCrossings (fieldFloats rest) polygon y).countP (fun c => decide (x < c)) =
      (edges polygon).countP fun e => spans y e && decide (x < crossing y e) := by
  rw [(rowCrossings_perm hlong y).countP_eq, List.countP_filterMap]
  refine List.countP_congr fun e _ => ?_
  cases hspans : spans y e <;> simp

/-- Counting the crossings of a row from the right is the ray cast. -/
theorem insideRow_eq (hlong : 3 ≤ polygon.length) (x y : K) :
    insideRow (fieldFloats rest) (rowCrossings (fieldFloats rest) polygon y) x =
      pointInPolygon (fieldFloats rest) x y polygon := by
  rw [pointInPolygon_eq hlong, ← countP_rowCrossings rest hlong]
  show Parity.odd ((rowCrossings _ polygon y).dropWhile fun c => !decide (x < c)).length = _
  rw [Parity.length_dropWhile_not]
  exact (rowCrossings_sorted rest hlong y).imp fun hab h =>
    decide_eq_true (lt_of_lt_of_le (of_decide_eq_true h) hab)

/-- A row is crossed an even number of times. -/
theorem length_rowCrossings (rest : Floats K K) (hlong : 3 ≤ polygon.length) (y : K) :
    Parity.odd (rowCrossings (fieldFloats rest) polygon y).length = false := by
  have hlen : (rowCrossings (fieldFloats rest) polygon y).length =
      (edges polygon).countP fun e => spans y e := by
    rw [(rowCrossings_perm hlong y).length_eq, List.length_filterMap_eq_countP]
    refine List.countP_congr fun e _ => ?_
    cases hspans : spans y e <;> simp
  rw [hlen]
  exact Parity.changes_closed (fun p : Point32 K => decide (y < p.y)) polygon

/-- What is inside a row lies between its first crossing and its last. -/
theorem between_of_insideRow (hlong : 3 ≤ polygon.length) {x y : K}
    (h : insideRow (fieldFloats rest) (rowCrossings (fieldFloats rest) polygon y) x = true) :
    ∃ front back, (rowCrossings (fieldFloats rest) polygon y).head? = some front ∧
      (rowCrossings (fieldFloats rest) polygon y).getLast? = some back ∧
      front ≤ x ∧ x ≤ back := by
  have hsorted := rowCrossings_sorted rest hlong y
  have heven := length_rowCrossings rest hlong y
  rw [insideRow_eq hlong, pointInPolygon_eq hlong, ← countP_rowCrossings rest hlong] at h
  generalize rowCrossings (fieldFloats rest) polygon y = crossings at *
  cases crossings with
  | nil => cases h
  | cons front tail =>
    have hlast : (front :: tail).getLast? = some ((front :: tail).getLast (List.cons_ne_nil _ _)) :=
      List.getLast?_eq_some_getLast _
    refine ⟨front, _, rfl, hlast, ?_, ?_⟩
    · -- Left of the first crossing all of them count.
      by_contra hleft
      have hall : ∀ c ∈ front :: tail, decide (x < c) = true := by
        intro c hc
        refine decide_eq_true (lt_of_lt_of_le (not_le.1 hleft) ?_)
        rcases List.mem_cons.1 hc with rfl | hc
        · exact le_refl c
        · exact (List.pairwise_cons.1 hsorted).1 c hc
      rw [List.countP_eq_length.2 hall, heven] at h
      cases h
    · -- Right of the last one none does.
      by_contra hright
      have hnone : ∀ c ∈ front :: tail, ¬decide (x < c) = true := by
        intro c hc hlt
        refine absurd (of_decide_eq_true hlt) (not_lt.2 ?_)
        exact (hsorted.rel_getLast_of_rel_getLast_getLast hc (le_refl _)).trans
          (le_of_lt (not_le.1 hright))
      rw [List.countP_eq_zero.2 hnone] at h
      cases h

section Bounds

variable {α : Type} (f : α → K)

omit [Field K] [LinearOrder K] in
theorem foldl_rel {r : K → K → Prop} (hrefl : ∀ a, r a a)
    (htrans : ∀ {a b c}, r a b → r b c → r a c) {op : K → K → K}
    (hop : ∀ a b, r (op a b) a ∧ r (op a b) b) (l : List α) (m : K) :
    r (l.foldl (fun m q => op m (f q)) m) m ∧
      ∀ q ∈ l, r (l.foldl (fun m q => op m (f q)) m) (f q) := by
  induction l generalizing m with
  | nil => exact ⟨hrefl m, nofun⟩
  | cons a l ih =>
    obtain ⟨hstart, hall⟩ := ih (op m (f a))
    refine ⟨htrans hstart (hop m (f a)).1, fun q hq => ?_⟩
    rcases List.mem_cons.1 hq with rfl | hq
    · exact htrans hstart (hop m (f q)).2
    · exact hall q hq

theorem foldl_min_le (rest : Floats K K) (l : List α) (m : K) :
    l.foldl (fun m q => (fieldArith rest.double).min m (f q)) m ≤ m ∧
      ∀ q ∈ l, l.foldl (fun m q => (fieldArith rest.double).min m (f q)) m ≤ f q := by
  refine foldl_rel f le_refl le_trans (fun a b => ?_) l m
  show (if decide (b < a) then b else a) ≤ a ∧ (if decide (b < a) then b else a) ≤ b
  by_cases hlt : b < a
  · simp [hlt, hlt.le]
  · simp [hlt, not_lt.1 hlt]

theorem le_foldl_max (rest : Floats K K) (l : List α) (m : K) :
    m ≤ l.foldl (fun m q => (fieldArith rest.double).max m (f q)) m ∧
      ∀ q ∈ l, f q ≤ l.foldl (fun m q => (fieldArith rest.double).max m (f q)) m := by
  refine foldl_rel f (r := fun a b => b ≤ a) le_refl (fun h h' => h'.trans h) (fun a b => ?_) l m
  show a ≤ (if decide (a < b) then b else a) ∧ b ≤ (if decide (a < b) then b else a)
  by_cases hlt : a < b
  · simp [hlt, hlt.le]
  · simp [hlt, not_lt.1 hlt]

end Bounds

theorem mem_of_edges {P : Type} {points : List P} {e : P × P} (h : e ∈ edges points) :
    e.1 ∈ points ∧ e.2 ∈ points := by
  have hmem := List.of_mem_zip h
  refine ⟨?_, hmem.2⟩
  rcases List.mem_append.1 hmem.1 with hlast | hmem
  · exact List.mem_of_getLast? (Option.mem_toList.1 hlast)
  · exact hmem

/-- A row that is crossed lies between the least vertex and the greatest. -/
theorem yRange_of_crossed (hlong : 3 ≤ polygon.length) {y front : K}
    (h : (rowCrossings (fieldFloats rest) polygon y).head? = some front) (p : Point32 K) :
    (yRange (fieldFloats rest) polygon p).1 ≤ y ∧ y ≤ (yRange (fieldFloats rest) polygon p).2 := by
  have hmem := (rowCrossings_perm hlong y).mem_iff.1 (List.mem_of_head? h)
  obtain ⟨e, he, hspans⟩ := List.mem_filterMap.1 hmem
  obtain ⟨hstart, hend⟩ := mem_of_edges he
  have hlow : ∀ q ∈ polygon, (yRange (fieldFloats rest) polygon p).1 ≤ q.y :=
    (foldl_min_le (fun q : Point32 K => q.y) rest polygon p.y).2
  have hhigh : ∀ q ∈ polygon, q.y ≤ (yRange (fieldFloats rest) polygon p).2 :=
    (le_foldl_max (fun q : Point32 K => q.y) rest polygon p.y).2
  have hchange : spans y e = true := by
    by_contra hno
    rw [if_neg hno] at hspans
    cases hspans
  unfold spans at hchange
  by_cases hup : y < e.2.y
  · have hdown : ¬y < e.1.y := by
      intro hlt
      rw [decide_eq_true hup, decide_eq_true hlt] at hchange
      cases hchange
    exact ⟨(hlow _ hstart).trans (not_lt.1 hdown), (le_of_lt hup).trans (hhigh _ hend)⟩
  · have hlt : y < e.1.y := by
      by_contra hno
      rw [decide_eq_false hup, decide_eq_false hno] at hchange
      cases hchange
    exact ⟨(hlow _ hend).trans (not_lt.1 hup), (le_of_lt hlt).trans (hhigh _ hstart)⟩

/-- The cells that are called are those whose centres the ray cast puts inside. -/
theorem mem_forEachCellInside_exact (polygon : Polygon K) (axes : GridAxes K)
    (window : CellWindow) (r c : Nat) :
    (r, c) ∈ forEachCellInside (fieldFloats rest) polygon axes.toCellAxes window ↔
      window.contains r c = true ∧ ∃ p, axes.centre? r c = some p ∧
        pointInPolygon (fieldFloats rest) p.1 p.2 polygon = true := by
  by_cases hlong : 3 ≤ polygon.length
  · cases polygon with
    | nil => cases hlong
    | cons first others =>
      rw [mem_forEachCellInside]
      unfold CellWindow.contains
      rw [Bool.and_eq_true]
      constructor
      · rintro ⟨-, hcol, -, y, hy, hr⟩
        obtain ⟨front, back, x, -, -, hx, hrow, -, hinside⟩ := (mem_insideRows _).1 hr
        rw [insideRow_eq hlong] at hinside
        exact ⟨⟨hrow, hcol⟩, (x, y), CellAxes.centre?_eq_some.2 ⟨hx, hy⟩, hinside⟩
      · rintro ⟨⟨hrow, hcol⟩, p, hp, hinside⟩
        obtain ⟨hx, hy⟩ := CellAxes.centre?_eq_some.1 hp
        rw [← insideRow_eq hlong] at hinside
        obtain ⟨front, back, hfront, hback, hleft, hright⟩ := between_of_insideRow hlong hinside
        obtain ⟨hlow, hhigh⟩ := yRange_of_crossed hlong hfront first
        exact ⟨hlong, hcol, contains_coveringRange axes.colsDecrease hy hlow hhigh, p.2, hy,
          (mem_insideRows _).2 ⟨front, back, p.1, hfront, hback, hx, hrow,
            contains_coveringRange axes.rowsDecrease hx hleft hright, hinside⟩⟩
  · constructor
    · intro h
      cases polygon with
      | nil => cases h
      | cons first others => exact absurd ((mem_forEachCellInside _).1 h).1 hlong
    · rintro ⟨-, p, -, hinside⟩
      unfold pointInPolygon at hinside
      rw [if_pos (by omega)] at hinside
      cases hinside

end Field

/-! ## The edges -/

section Edges

open Segment (sqDist foot unitClamp Nearest OnSegment along)

variable {K : Type} [Field K] [LinearOrder K] [IsStrictOrderedRing K] {rest : Floats K K}

/-- Where `closest_point_on_segment` takes an edge for a point. -/
def Short (a b : K × K) : Prop := sqDist b a ≤ (1 / 1000000000000 : ℚ)

variable {a b : K × K}

omit [IsStrictOrderedRing K] in
theorem closest_short (h : Short a b) (p : K × K) :
    (closestPointOnSegment (fieldFloats rest) p.1 p.2 a b).distance =
      rest.double.hypot (p.1 - a.1) (p.2 - a.2) := by
  have hlt : (fieldFloats rest).double.lt ((1 / 1000000000000 : ℚ) : K) (sqDist b a) = false :=
    decide_eq_false (not_lt.2 h)
  unfold closestPointOnSegment
  show rest.double.hypot (p.1 - (a.1 + (if (fieldFloats rest).double.lt
    ((1 / 1000000000000 : ℚ) : K) (sqDist b a) = true then _ else ((0 : ℚ) : K)) * _))
    (p.2 - (a.2 + (if (fieldFloats rest).double.lt
    ((1 / 1000000000000 : ℚ) : K) (sqDist b a) = true then _ else ((0 : ℚ) : K)) * _)) = _
  rw [hlt, if_neg Bool.false_ne_true, Rat.cast_zero, zero_mul, zero_mul, add_zero, add_zero]

omit [IsStrictOrderedRing K] in
theorem clamp_eq (u : K) :
    (fieldFloats rest).double.clamp u ((0 : ℚ) : K) ((1 : ℚ) : K) = unitClamp u := by
  rw [Rat.cast_zero, Rat.cast_one]
  unfold Arith.clamp unitClamp
  show (if decide (u < 0) = true then 0 else if decide (1 < u) = true then 1 else u) = _
  simp only [decide_eq_true_eq]

omit [IsStrictOrderedRing K] in
theorem closest_long (h : ¬Short a b) (p : K × K) :
    (closestPointOnSegment (fieldFloats rest) p.1 p.2 a b).distance =
      rest.double.hypot (p.1 - (along a b (unitClamp (foot p a b))).1)
        (p.2 - (along a b (unitClamp (foot p a b))).2) := by
  have hlt : (fieldFloats rest).double.lt ((1 / 1000000000000 : ℚ) : K) (sqDist b a) = true :=
    decide_eq_true (not_le.1 h)
  unfold closestPointOnSegment
  show rest.double.hypot (p.1 - (a.1 + (if (fieldFloats rest).double.lt
    ((1 / 1000000000000 : ℚ) : K) (sqDist b a) = true then
      (fieldFloats rest).double.clamp (foot p a b) ((0 : ℚ) : K) ((1 : ℚ) : K) else _) * _))
    (p.2 - (a.2 + (if (fieldFloats rest).double.lt
    ((1 / 1000000000000 : ℚ) : K) (sqDist b a) = true then
      (fieldFloats rest).double.clamp (foot p a b) ((0 : ℚ) : K) ((1 : ℚ) : K) else _) * _)) = _
  rw [hlt, if_pos rfl, clamp_eq]
  rfl

/-- The centre lies within the margin of the edge. -/
def Within (a b p : K × K) (margin : K) : Prop :=
  0 ≤ margin ∧ ∃ q, OnSegment a b q ∧ sqDist p q ≤ margin * margin

theorem abs_le_margin {u v margin : K} (hm : 0 ≤ margin) (h : u * u + v * v ≤ margin * margin) :
    -margin ≤ u ∧ u ≤ margin := by
  have hu : u ^ 2 ≤ margin ^ 2 := by
    have hv := mul_self_nonneg v
    rw [sq, sq]
    linarith
  exact abs_le.1 (abs_le_of_sq_le_sq hu hm)

/-- The box of an edge holds every cell within the margin. -/
theorem contains_edgeWindow {p : K × K} {margin : K} (h : Within a b p margin) {axes : GridAxes K}
    {r c : Nat} (hp : axes.centre? r c = some p) :
    (edgeWindow (fieldFloats rest) a b axes.toCellAxes margin).contains r c = true := by
  obtain ⟨hm, q, hq, hle⟩ := h
  obtain ⟨hx, hy⟩ := CellAxes.centre?_eq_some.1 hp
  obtain ⟨⟨hx0, hx1⟩, hy0, hy1⟩ := hq.between
  obtain ⟨hdx0, hdx1⟩ := abs_le_margin hm hle
  obtain ⟨hdy0, hdy1⟩ := abs_le_margin hm ((add_comm _ _).trans_le hle)
  have hmin : ∀ u v : K, (fieldFloats rest).double.min u v = min u v := by
    intro u v
    show (if decide (v < u) = true then v else u) = _
    by_cases huv : v < u
    · rw [if_pos (decide_eq_true huv), min_eq_right (le_of_lt huv)]
    · rw [if_neg (by simpa using huv), min_eq_left (not_lt.1 huv)]
  have hmax : ∀ u v : K, (fieldFloats rest).double.max u v = max u v := by
    intro u v
    show (if decide (u < v) = true then v else u) = _
    by_cases huv : u < v
    · rw [if_pos (decide_eq_true huv), max_eq_right (le_of_lt huv)]
    · rw [if_neg (by simpa using huv), max_eq_left (not_lt.1 huv)]
  unfold edgeWindow CellWindow.contains
  dsimp only
  rw [hmin, hmax, hmin, hmax, Bool.and_eq_true]
  constructor
  · refine contains_coveringRange axes.rowsDecrease hx ?_ ?_
    · show min a.1 b.1 - margin ≤ p.1
      linarith
    · show p.1 ≤ max a.1 b.1 + margin
      linarith
  · refine contains_coveringRange axes.colsDecrease hy ?_ ?_
    · show min a.2 b.2 - margin ≤ p.2
      linarith
    · show p.2 ≤ max a.2 b.2 + margin
      linarith

/-- What one pass over an edge reports. -/
structure EdgePass (hypot : K → K → K) (axes : CellAxes K) (window : CellWindow) (margin : K)
    (a b : K × K) (calls : List (Nat × Nat × K)) : Prop where
  once : (calls.map fun call => (call.1, call.2.1)).Nodup
  all : ∀ r c p, window.contains r c = true → axes.centre? r c = some p →
    Within a b p margin → ∃ distance, (r, c, distance) ∈ calls
  distance : ∀ r c distance, (r, c, distance) ∈ calls → window.contains r c = true ∧
    ∃ p, axes.centre? r c = some p ∧
      ∃ q, (Short a b → q = a) ∧ (¬Short a b ∨ sqDist b a = 0 → Nearest a b p q) ∧
        distance = hypot (p.1 - q.1) (p.2 - q.2)

theorem edgePass (axes : GridAxes K) (window : CellWindow) (margin : K) (a b : K × K) :
    EdgePass rest.double.hypot axes.toCellAxes window margin a b
      (edgeCells (fieldFloats rest) a b axes.toCellAxes window margin) := by
  refine ⟨nodup_edgeCells _, ?_, ?_⟩
  · intro r c p hwindow hp hwithin
    exact ⟨_, (mem_edgeCells _).2 ⟨hwindow, contains_edgeWindow hwithin hp, p, hp, rfl⟩⟩
  · intro r c distance hcall
    obtain ⟨hwindow, -, p, hp, hdistance⟩ := (mem_edgeCells _).1 hcall
    refine ⟨hwindow, p, hp, ?_⟩
    dsimp only at hdistance
    rw [hdistance]
    by_cases hshort : Short a b
    · refine ⟨a, fun _ => rfl, ?_, closest_short hshort p⟩
      rintro (hlong | hpoint)
      · exact absurd hshort hlong
      · exact Segment.nearest_point hpoint p
    · have hpos : sqDist b a ≠ 0 := by
        intro hzero
        refine hshort ?_
        unfold Short
        rw [hzero]
        exact_mod_cast (by norm_num : (0 : ℚ) ≤ 1 / 1000000000000)
      exact ⟨_, fun h => absurd h hshort, fun _ => Segment.nearest_clamp hpos p,
        closest_long hshort p⟩

/-- The rasteriser calls each covered cell once, and near each edge every cell within the margin
    once, with its distance from the edge. -/
theorem rasteriser_exact (polygon : Polygon K) (axes : GridAxes K) (window : CellWindow) :
    (forEachCellInside (fieldFloats rest) polygon axes.toCellAxes window).Nodup ∧
    (∀ r c, (r, c) ∈ forEachCellInside (fieldFloats rest) polygon axes.toCellAxes window ↔
      window.contains r c = true ∧ ∃ p, axes.centre? r c = some p ∧
        pointInPolygon (fieldFloats rest) p.1 p.2 polygon = true) ∧
    ∀ margin, ∃ pass : Point32 K × Point32 K → List (Nat × Nat × K),
      (2 ≤ polygon.length → forEachCellNearEdges (fieldFloats rest) polygon axes.toCellAxes
        window margin = (edges polygon).flatMap pass) ∧
      ∀ e, EdgePass rest.double.hypot axes.toCellAxes window margin (e.1.x, e.1.y)
        (e.2.x, e.2.y) (pass e) := by
  refine ⟨nodup_forEachCellInside _, mem_forEachCellInside_exact polygon axes window, ?_⟩
  intro margin
  refine ⟨fun e => edgeCells (fieldFloats rest) (e.1.x, e.1.y) (e.2.x, e.2.y) axes.toCellAxes
    window margin, ?_, fun e => edgePass axes window margin _ _⟩
  intro hlong
  unfold forEachCellNearEdges
  rw [if_neg (by omega)]
  rfl

end Edges

/-- An edge below a micrometre is taken for its start. -/
theorem tiny_edge_inexact :
    ¬∀ (polygon : Polygon ℚ) (axes : GridAxes ℚ) (window : CellWindow) (margin : ℚ),
      3 ≤ polygon.length → ∀ e ∈ edges polygon, ∀ r c distance,
        (r, c, distance) ∈ edgeCells (fieldFloats exact) (e.1.x, e.1.y) (e.2.x, e.2.y)
          axes.toCellAxes window margin →
        ∃ p, axes.centre? r c = some p ∧
          ∃ q, Segment.Nearest (e.1.x, e.1.y) (e.2.x, e.2.y) p q ∧
            distance = exact.double.hypot (p.1 - q.1) (p.2 - q.2) := by
  intro h
  have hshort : Short ((0 : ℚ), (0 : ℚ)) (1 / 10000000, 0) := by
    unfold Short Segment.sqDist
    norm_num
  obtain ⟨p, hp, q, hq, hdistance⟩ := h [⟨0, 0, 0⟩, ⟨1 / 10000000, 0, 0⟩, ⟨0, 1, 0⟩]
    ⟨⟨[1], [0]⟩, List.pairwise_singleton _ _, List.pairwise_singleton _ _⟩ ⟨⟨0, 0⟩, ⟨0, 0⟩⟩ 2
    (by decide) (⟨0, 0, 0⟩, ⟨1 / 10000000, 0, 0⟩) (by simp [edges]) 0 0 _
    ((mem_edgeCells _).2 ⟨rfl, by decide +kernel, (1, 0), rfl, rfl⟩)
  cases hp
  obtain ⟨⟨t, h0, h1, rfl⟩, hnearest⟩ := hq
  have hreported : exact.double.hypot (1 - 0) (0 - 0) = exact.double.hypot
      (1 - (0 + t * (1 / 10000000 - 0))) (0 - (0 + t * (0 - 0))) :=
    (closest_short hshort (1, 0)).symm.trans hdistance
  have hend : (1 - (0 + t * (1 / 10000000 - 0))) * (1 - (0 + t * (1 / 10000000 - 0))) +
      (0 - (0 + t * (0 - 0))) * (0 - (0 + t * (0 - 0))) ≤
      (1 - 1 / 10000000) * (1 - 1 / 10000000) + (0 - 0) * (0 - 0) :=
    hnearest (1 / 10000000, 0) ⟨1, zero_le_one, le_refl 1, by simp [Segment.along]⟩
  have hpos : ¬1 - (0 + t * (1 / 10000000 - 0)) < 0 := by
    rw [not_lt]
    linarith
  have hlen : (1 : ℚ) = 1 - (0 + t * (1 / 10000000 - 0)) := by
    have hunfold : ∀ x y : ℚ, exact.double.hypot x y =
      (if x < 0 then -x else x) + if y < 0 then -y else y := fun _ _ => rfl
    rw [hunfold, hunfold, if_neg hpos, if_neg (by norm_num : ¬(1 : ℚ) - 0 < 0)] at hreported
    simpa using hreported
  rw [← hlen] at hend
  norm_num at hend

/-- The cell in the middle of a square. -/
theorem rasteriser_exact_square :
    (1, 1) ∈ forEachCellInside (fieldFloats exact)
      [⟨0, 0, 0⟩, ⟨2, 0, 0⟩, ⟨2, 2, 0⟩, ⟨0, 2, 0⟩] ⟨[3, 1], [3, 1]⟩ ⟨⟨0, 1⟩, ⟨0, 1⟩⟩ :=
  ((@rasteriser_exact ℚ _ _ _ exact _ ⟨⟨[3, 1], [3, 1]⟩, by decide +kernel, by decide +kernel⟩
    ⟨⟨0, 1⟩, ⟨0, 1⟩⟩).2.1 1 1).2 ⟨by decide, (1, 1), rfl, by decide +kernel⟩

end Map
end Mowgli
