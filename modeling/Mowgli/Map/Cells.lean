import Mathlib.Data.List.Nodup
import Mowgli.Lib.Parity
import Mowgli.Map.Raster

/-!
# Cells — the rasteriser against the test of one cell

`for_each_cell_inside` and `for_each_cell_near_edges` of `polygon_raster.hpp`, over numbers that
do not round: the cells they call their function on, in the order of the calls.
-/

namespace Mowgli
namespace Map

/-- Inclusive rectangle of cells. -/
structure CellWindow where
  rows : IndexRange
  cols : IndexRange

/-- The loop from the first index to the last. A range clipped to an axis starts at 0 or later. -/
def IndexRange.indices (a : IndexRange) : List Nat :=
  List.range' a.first.toNat (a.last + 1 - a.first).toNat

section Cells

variable {F D : Type} (fl : Floats F D)

/-- The least and the greatest of the vertices. -/
def yRange (polygon : Polygon F) (p : Point32 F) : D × D :=
  (polygon.foldl (fun m q => fl.double.min m (fl.widen q.y)) (fl.widen p.y),
    polygon.foldl (fun m q => fl.double.max m (fl.widen q.y)) (fl.widen p.y))

/-- The rows that the pass over one column visits. -/
def insideRows (polygon : Polygon F) (axes : CellAxes D) (window : CellWindow) (y : D) :
    List Nat :=
  let crossings := rowCrossings fl polygon y
  match crossings.head?, crossings.getLast? with
  | some front, some back =>
    (window.rows.intersect (coveringRange fl axes.xOfRow front back)).indices.filter fun r =>
      match axes.xOfRow[r]? with
      | some x => insideRow fl crossings x
      | none => false
  | _, _ => []

/-- The calls of the pass over one column. -/
def columnCells (polygon : Polygon F) (axes : CellAxes D) (window : CellWindow) (c : Nat) :
    List (Nat × Nat) :=
  match axes.yOfCol[c]? with
  | some y => (insideRows fl polygon axes window y).map fun r => (r, c)
  | none => []

/-- The calls of `for_each_cell_inside`. -/
def forEachCellInside (polygon : Polygon F) (axes : CellAxes D) (window : CellWindow) :
    List (Nat × Nat) :=
  match polygon with
  | [] => []
  | p :: _ =>
    if polygon.length < 3 then []
    else
      -- Any vertex will do in place of the largest `double` and the lowest.
      let range := yRange fl polygon p
      (window.cols.intersect (coveringRange fl axes.yOfCol range.1 range.2)).indices.flatMap
        (columnCells fl polygon axes window)

/-- `ClosestEdge`. -/
structure ClosestEdge (D : Type) where
  x : D
  y : D
  distance : D

def closestPointOnSegment (px py : D) (a b : D × D) : ClosestEdge D :=
  let d := fl.double
  let dx := d.sub b.1 a.1
  let dy := d.sub b.2 a.2
  let len2 := d.add (d.mul dx dx) (d.mul dy dy)
  let t := if d.lt (d.lit (1 / 1000000000000)) len2 then
      d.clamp (d.div (d.add (d.mul (d.sub px a.1) dx) (d.mul (d.sub py a.2) dy)) len2)
        (d.lit 0) (d.lit 1)
    else d.lit 0
  let cx := d.add a.1 (d.mul t dx)
  let cy := d.add a.2 (d.mul t dy)
  { x := cx, y := cy, distance := d.hypot (d.sub px cx) (d.sub py cy) }

/-- The calls on one row for an edge. -/
def edgeRowCells (a b : D × D) (axes : CellAxes D) (cols : List Nat) (r : Nat) :
    List (Nat × Nat × D) :=
  match axes.xOfRow[r]? with
  | some px =>
    cols.filterMap fun c =>
      axes.yOfCol[c]?.map fun py => (r, c, (closestPointOnSegment fl px py a b).distance)
  | none => []

/-- The pass of `for_each_cell_near_edges` over one edge. -/
def edgeCells (a b : D × D) (axes : CellAxes D) (window : CellWindow) (margin : D) :
    List (Nat × Nat × D) :=
  let d := fl.double
  let rows := window.rows.intersect
    (coveringRange fl axes.xOfRow (d.sub (d.min a.1 b.1) margin) (d.add (d.max a.1 b.1) margin))
  let cols := window.cols.intersect
    (coveringRange fl axes.yOfCol (d.sub (d.min a.2 b.2) margin) (d.add (d.max a.2 b.2) margin))
  rows.indices.flatMap (edgeRowCells fl a b axes cols.indices)

/-- The ends of an edge. -/
def ends (e : Point32 F × Point32 F) : (D × D) × (D × D) :=
  ((fl.widen e.1.x, fl.widen e.1.y), (fl.widen e.2.x, fl.widen e.2.y))

/-- The calls of `for_each_cell_near_edges`. -/
def forEachCellNearEdges (polygon : Polygon F) (axes : CellAxes D) (window : CellWindow)
    (margin : D) : List (Nat × Nat × D) :=
  if polygon.length < 2 then []
  else
    (edges polygon).flatMap fun e =>
      edgeCells fl (ends fl e).1 (ends fl e).2 axes window margin

end Cells

/-! ## Ranges -/

theorem IndexRange.mem_indices {a : IndexRange} (h : 0 ≤ a.first) {i : Nat} :
    i ∈ a.indices ↔ a.contains i = true := by
  unfold IndexRange.indices IndexRange.contains
  rw [List.mem_range'_1, Bool.and_eq_true, decide_eq_true_eq, decide_eq_true_eq]
  omega

theorem IndexRange.nodup_indices (a : IndexRange) : a.indices.Nodup := List.nodup_range'

theorem IndexRange.contains_intersect (a b : IndexRange) (i : Nat) :
    (a.intersect b).contains i = (a.contains i && b.contains i) := by
  unfold IndexRange.intersect IndexRange.contains
  rw [Bool.eq_iff_iff]
  simp only [Bool.and_eq_true, decide_eq_true_eq]
  split <;> split <;> omega

section Covering

variable {F D : Type} (fl : Floats F D)

theorem coveringRange_first (axis : List D) (lo hi : D) :
    0 ≤ (coveringRange fl axis lo hi).first := by
  unfold coveringRange
  dsimp only
  split
  · exact Int.le_refl 0
  · dsimp only
    split <;> omega

theorem intersect_first (a : IndexRange) (axis : List D) (lo hi : D) :
    0 ≤ (a.intersect (coveringRange fl axis lo hi)).first := by
  have h := coveringRange_first fl axis lo hi
  unfold IndexRange.intersect
  dsimp only
  split <;> omega

/-- A clipped window contains what the window and the range contain. -/
theorem mem_clipped {a : IndexRange} {axis : List D} {lo hi : D} {i : Nat} :
    i ∈ (a.intersect (coveringRange fl axis lo hi)).indices ↔
      a.contains i = true ∧ (coveringRange fl axis lo hi).contains i = true := by
  rw [IndexRange.mem_indices (intersect_first fl a axis lo hi), IndexRange.contains_intersect,
    Bool.and_eq_true]

end Covering

/-! ## Calls -/

def CellWindow.contains (window : CellWindow) (r c : Nat) : Bool :=
  window.rows.contains r && window.cols.contains c

/-- The centre of a cell, where the axes have it. -/
def CellAxes.centre? {D : Type} (axes : CellAxes D) (r c : Nat) : Option (D × D) :=
  axes.xOfRow[r]?.bind fun x => axes.yOfCol[c]?.map fun y => (x, y)

variable {r c : Nat}

theorem CellAxes.centre?_eq_some {D : Type} {axes : CellAxes D} {p : D × D} :
    axes.centre? r c = some p ↔ axes.xOfRow[r]? = some p.1 ∧ axes.yOfCol[c]? = some p.2 := by
  unfold CellAxes.centre?
  cases axes.xOfRow[r]? with
  | none => simp
  | some x =>
    cases axes.yOfCol[c]? with
    | none => simp
    | some y => simp [Prod.ext_iff]

section Calls

variable {F D : Type} (fl : Floats F D) {polygon : Polygon F} {axes : CellAxes D}
  {window : CellWindow}

theorem mem_insideRows {y : D} :
    r ∈ insideRows fl polygon axes window y ↔
      ∃ front back x, (rowCrossings fl polygon y).head? = some front ∧
        (rowCrossings fl polygon y).getLast? = some back ∧ axes.xOfRow[r]? = some x ∧
        window.rows.contains r = true ∧
        (coveringRange fl axes.xOfRow front back).contains r = true ∧
        insideRow fl (rowCrossings fl polygon y) x = true := by
  unfold insideRows
  dsimp only
  cases hfront : (rowCrossings fl polygon y).head? with
  | none => simp
  | some front =>
    cases hback : (rowCrossings fl polygon y).getLast? with
    | none => simp
    | some back =>
      dsimp only
      rw [List.mem_filter, mem_clipped]
      constructor
      · rintro ⟨⟨hwindow, hrange⟩, hinside⟩
        cases hx : axes.xOfRow[r]? with
        | none =>
          rw [hx] at hinside
          cases hinside
        | some x =>
          rw [hx] at hinside
          exact ⟨front, back, x, rfl, rfl, rfl, hwindow, hrange, hinside⟩
      · rintro ⟨front', back', x, hfront', hback', hx, hwindow, hrange, hinside⟩
        cases hfront'
        cases hback'
        refine ⟨⟨hwindow, hrange⟩, ?_⟩
        rw [hx]
        exact hinside

theorem nodup_insideRows (y : D) : (insideRows fl polygon axes window y).Nodup := by
  unfold insideRows
  dsimp only
  split
  · exact (IndexRange.nodup_indices _).filter _
  · exact List.nodup_nil

theorem mem_columnCells {cell : Nat × Nat} :
    cell ∈ columnCells fl polygon axes window c ↔
      cell.2 = c ∧ ∃ y, axes.yOfCol[c]? = some y ∧
        cell.1 ∈ insideRows fl polygon axes window y := by
  unfold columnCells
  cases axes.yOfCol[c]? with
  | none => simp
  | some y =>
    dsimp only
    rw [List.mem_map]
    constructor
    · rintro ⟨r, hr, rfl⟩
      exact ⟨rfl, y, rfl, hr⟩
    · rintro ⟨hc, y', hy', hr⟩
      cases hy'
      exact ⟨cell.1, hr, by rw [← hc]⟩

theorem nodup_columnCells (c : Nat) : (columnCells fl polygon axes window c).Nodup := by
  unfold columnCells
  cases axes.yOfCol[c]? with
  | none => exact List.nodup_nil
  | some y => exact (nodup_insideRows fl y).map fun r r' h => congrArg Prod.fst h

theorem mem_forEachCellInside {p : Point32 F} {rest : List (Point32 F)} :
    (r, c) ∈ forEachCellInside fl (p :: rest) axes window ↔
      3 ≤ (p :: rest).length ∧ window.cols.contains c = true ∧
        (coveringRange fl axes.yOfCol (yRange fl (p :: rest) p).1
          (yRange fl (p :: rest) p).2).contains c = true ∧
        ∃ y, axes.yOfCol[c]? = some y ∧ r ∈ insideRows fl (p :: rest) axes window y := by
  unfold forEachCellInside
  dsimp only
  split
  · next hshort =>
    constructor
    · intro h
      cases h
    · rintro ⟨hlong, -⟩
      omega
  · next hlong =>
    rw [List.mem_flatMap]
    constructor
    · rintro ⟨c', hc', hmem⟩
      obtain ⟨heq, y, hy, hr⟩ := (mem_columnCells fl).1 hmem
      obtain ⟨hwindow, hrange⟩ := (mem_clipped fl).1 hc'
      cases heq
      exact ⟨Nat.le_of_not_lt hlong, hwindow, hrange, y, hy, hr⟩
    · rintro ⟨-, hwindow, hrange, y, hy, hr⟩
      exact ⟨c, (mem_clipped fl).2 ⟨hwindow, hrange⟩, (mem_columnCells fl).2 ⟨rfl, y, hy, hr⟩⟩

/-- No cell is called twice. -/
theorem nodup_forEachCellInside : (forEachCellInside fl polygon axes window).Nodup := by
  unfold forEachCellInside
  cases polygon with
  | nil => exact List.nodup_nil
  | cons p rest =>
    dsimp only
    split
    · exact List.nodup_nil
    · refine List.nodup_flatMap.2 ⟨fun c _ => nodup_columnCells fl c, ?_⟩
      refine (IndexRange.nodup_indices _).imp fun {c c'} hne => ?_
      intro cell hcell hcell'
      have hc := ((mem_columnCells fl).1 hcell).1
      have hc' := ((mem_columnCells fl).1 hcell').1
      exact hne (hc.symm.trans hc')

/-- Over the whole grid the cells called are those that the layers take for covered. -/
theorem mem_forEachCellInside_whole :
    (r, c) ∈ forEachCellInside fl polygon axes
      { rows := { first := 0, last := (axes.xOfRow.length : Int) - 1 }
        cols := { first := 0, last := (axes.yOfCol.length : Int) - 1 } } ↔
      cellInside fl polygon axes r c = true := by
  cases polygon with
  | nil =>
    constructor
    · intro h
      cases h
    · intro h
      cases h
  | cons p rest =>
    rw [mem_forEachCellInside]
    unfold cellInside
    dsimp only
    by_cases hshort : (p :: rest).length < 3
    · rw [if_pos hshort]
      constructor
      · rintro ⟨hlong, -⟩
        omega
      · intro h
        cases h
    · rw [if_neg hshort, IndexRange.contains_intersect]
      cases hy : axes.yOfCol[c]? with
      | none => simp
      | some y =>
        cases hx : axes.xOfRow[r]? with
        | none =>
          dsimp only
          rw [Bool.and_false]
          constructor
          · rintro ⟨-, -, -, y', -, hr⟩
            obtain ⟨_, _, x, -, -, hx', -⟩ := (mem_insideRows fl).1 hr
            rw [hx] at hx'
            cases hx'
          · intro h
            cases h
        | some x =>
          rw [Bool.and_eq_true, Bool.and_eq_true]
          constructor
          · rintro ⟨-, hwindow, hrange, y', hy', hr⟩
            cases hy'
            obtain ⟨front, back, x', hfront, hback, hx', hrow, hrow', hinside⟩ :=
              (mem_insideRows fl).1 hr
            cases hx.symm.trans hx'
            refine ⟨⟨hwindow, hrange⟩, ?_⟩
            dsimp only
            rw [hfront, hback]
            dsimp only
            rw [IndexRange.contains_intersect, hrow, hrow', hinside]
            rfl
          · rintro ⟨⟨hwindow, hrange⟩, hmem⟩
            refine ⟨Nat.le_of_not_lt hshort, hwindow, hrange, y, rfl, ?_⟩
            dsimp only at hmem
            cases hfront : (rowCrossings fl (p :: rest) y).head? with
            | none =>
              rw [hfront] at hmem
              cases hmem
            | some front =>
              cases hback : (rowCrossings fl (p :: rest) y).getLast? with
              | none =>
                rw [hfront, hback] at hmem
                cases hmem
              | some back =>
                rw [hfront, hback] at hmem
                dsimp only at hmem
                rw [IndexRange.contains_intersect, Bool.and_eq_true, Bool.and_eq_true] at hmem
                exact (mem_insideRows fl).2
                  ⟨front, back, x, hfront, hback, hx, hmem.1.1, hmem.1.2, hmem.2⟩

variable {a b : D × D} {margin : D}

theorem mem_edgeRowCells {cols : List Nat} {call : Nat × Nat × D} :
    call ∈ edgeRowCells fl a b axes cols r ↔
      call.1 = r ∧ call.2.1 ∈ cols ∧ ∃ p, axes.centre? call.1 call.2.1 = some p ∧
        call.2.2 = (closestPointOnSegment fl p.1 p.2 a b).distance := by
  unfold edgeRowCells
  constructor
  · intro hmem
    cases hx : axes.xOfRow[r]? with
    | none =>
      rw [hx] at hmem
      cases hmem
    | some px =>
      rw [hx] at hmem
      obtain ⟨c, hc, hcall⟩ := List.mem_filterMap.1 hmem
      obtain ⟨py, hy, rfl⟩ := Option.map_eq_some_iff.1 hcall
      exact ⟨rfl, hc, (px, py), CellAxes.centre?_eq_some.2 ⟨hx, hy⟩, rfl⟩
  · rintro ⟨rfl, hc, p, hp, hdistance⟩
    obtain ⟨hx, hy⟩ := CellAxes.centre?_eq_some.1 hp
    rw [hx]
    refine List.mem_filterMap.2 ⟨call.2.1, hc, ?_⟩
    rw [hy, Option.map_some, ← hdistance]

theorem nodup_edgeRowCells {cols : List Nat} (h : cols.Nodup) (r : Nat) :
    (edgeRowCells fl a b axes cols r).Nodup := by
  unfold edgeRowCells
  cases axes.xOfRow[r]? with
  | none => exact List.nodup_nil
  | some px =>
    refine h.filterMap ?_
    intro c c' call hcall hcall'
    obtain ⟨py, -, rfl⟩ := Option.map_eq_some_iff.1 hcall
    obtain ⟨py', -, heq⟩ := Option.map_eq_some_iff.1 hcall'
    exact (congrArg (fun k => k.2.1) heq).symm

/-- The rows and the columns that the pass over an edge visits. -/
def edgeWindow (a b : D × D) (axes : CellAxes D) (margin : D) : CellWindow :=
  let d := fl.double
  { rows := coveringRange fl axes.xOfRow (d.sub (d.min a.1 b.1) margin)
      (d.add (d.max a.1 b.1) margin)
    cols := coveringRange fl axes.yOfCol (d.sub (d.min a.2 b.2) margin)
      (d.add (d.max a.2 b.2) margin) }

theorem mem_edgeCells {call : Nat × Nat × D} :
    call ∈ edgeCells fl a b axes window margin ↔
      window.contains call.1 call.2.1 = true ∧
        (edgeWindow fl a b axes margin).contains call.1 call.2.1 = true ∧
        ∃ p, axes.centre? call.1 call.2.1 = some p ∧
          call.2.2 = (closestPointOnSegment fl p.1 p.2 a b).distance := by
  unfold edgeCells CellWindow.contains
  rw [List.mem_flatMap, Bool.and_eq_true, Bool.and_eq_true]
  constructor
  · rintro ⟨r, hr, hmem⟩
    obtain ⟨rfl, hc, hp⟩ := (mem_edgeRowCells fl).1 hmem
    obtain ⟨hrow, hrow'⟩ := (mem_clipped fl).1 hr
    obtain ⟨hcol, hcol'⟩ := (mem_clipped fl).1 hc
    exact ⟨⟨hrow, hcol⟩, ⟨hrow', hcol'⟩, hp⟩
  · rintro ⟨⟨hrow, hcol⟩, ⟨hrow', hcol'⟩, hp⟩
    exact ⟨call.1, (mem_clipped fl).2 ⟨hrow, hrow'⟩,
      (mem_edgeRowCells fl).2 ⟨rfl, (mem_clipped fl).2 ⟨hcol, hcol'⟩, hp⟩⟩

/-- No cell is called twice for one edge. -/
theorem nodup_edgeCells :
    ((edgeCells fl a b axes window margin).map fun call => (call.1, call.2.1)).Nodup := by
  refine List.Nodup.map_on ?_ ?_
  · intro call hcall call' hcall' heq
    obtain ⟨-, -, p, hp, hdistance⟩ := (mem_edgeCells fl).1 hcall
    obtain ⟨-, -, p', hp', hdistance'⟩ := (mem_edgeCells fl).1 hcall'
    obtain ⟨hrow, hcol⟩ := Prod.ext_iff.1 heq
    dsimp only at hrow hcol
    rw [hrow, hcol, hp'] at hp
    cases hp
    exact Prod.ext hrow (Prod.ext hcol (hdistance.trans hdistance'.symm))
  · unfold edgeCells
    refine List.nodup_flatMap.2
      ⟨fun r _ => nodup_edgeRowCells fl (IndexRange.nodup_indices _) r, ?_⟩
    refine (IndexRange.nodup_indices _).imp fun {r r'} hne => ?_
    intro call hcall hcall'
    have hr := ((mem_edgeRowCells fl).1 hcall).1
    have hr' := ((mem_edgeRowCells fl).1 hcall').1
    exact hne (hr.symm.trans hr')

end Calls

end Map
end Mowgli
