import Mathlib.Data.List.Destutter
import Mowgli.Gui.SimpleOutline

/-!
# CleanOutline — the outline without its repeated vertices

`dedupOutline` takes out what repeats the vertex before it, then what closes the ring a second
time. Both take out edges of no length only, so the edges that have a length, in their order around
the ring, are what they were (`strokes_dedup`).
-/

namespace Mowgli
namespace Gui
namespace Import

variable {α : Type} [DecidableEq α]

/-! ## What is asked for -/

/-- The edges that have a length, along a line. -/
def strokesAlong (line : List α) : List (α × α) := (line.zip line.tail).filter fun e => e.1 ≠ e.2

/-- The same around the ring, from its first vertex back to it. -/
def strokes (ring : List α) : List (α × α) := strokesAlong (ring ++ ring.head?.toList)

/-- No vertex repeats the one before it, and the last does not repeat the first. -/
structure Clean (ring : List α) : Prop where
  chain : ring.IsChain (· ≠ ·)
  wrap : 1 < ring.length → ring.head? ≠ ring.getLast?

theorem strokesAlong_cons (a b : α) (l : List α) :
    strokesAlong (a :: b :: l) = (if a ≠ b then [(a, b)] else []) ++ strokesAlong (b :: l) := by
  unfold strokesAlong
  simp only [List.tail_cons, List.zip_cons_cons, List.filter_cons]
  by_cases h : a = b
  · simp [h]
  · simp [h]

/-! ## The loop over the vertices -/

/-- The first vertex is kept. -/
theorem destutter_head (a : α) (l : List α) : ∃ rest, l.destutter' (· ≠ ·) a = a :: rest := by
  induction l with
  | nil => exact ⟨[], rfl⟩
  | cons b l ih =>
    by_cases h : a = b
    · rw [List.destutter'_cons_neg _ (by simpa using h)]
      exact ih
    · rw [List.destutter'_cons_pos _ h]
      exact ⟨_, rfl⟩

theorem foldl_appendVertex (out : List α) (a : α) (l : List α) :
    l.foldl appendVertex (out ++ [a]) = out ++ l.destutter' (· ≠ ·) a := by
  induction l generalizing out a with
  | nil => rfl
  | cons b l ih =>
    rw [List.foldl_cons, appendVertex]
    by_cases h : a = b
    · subst h
      rw [if_pos (by simp), List.destutter'_cons_neg _ (by simp), ih]
    · rw [if_neg (by simpa using h), List.destutter'_cons_pos _ h, ih]
      simp

theorem appendAll (a : α) (l : List α) :
    (a :: l).foldl appendVertex [] = l.destutter' (· ≠ ·) a := by
  simpa [appendVertex] using foldl_appendVertex [] a l

theorem strokesAlong_destutter (a : α) (l tail : List α) :
    strokesAlong (l.destutter' (· ≠ ·) a ++ tail) = strokesAlong (a :: (l ++ tail)) := by
  induction l generalizing a with
  | nil => rfl
  | cons b l ih =>
    by_cases h : a = b
    · subst h
      rw [List.destutter'_cons_neg _ (by simp), ih, List.cons_append, strokesAlong_cons a a]
      simp
    · -- The kept vertex is followed by the next one, wherever that one comes from.
      obtain ⟨rest, hrest⟩ := destutter_head b l
      rw [List.destutter'_cons_pos _ h, List.cons_append, List.cons_append, strokesAlong_cons a b,
        ← ih b, hrest, List.cons_append, strokesAlong_cons a b]

theorem mem_destutter {a b : α} {l : List α} : b ∈ l.destutter' (· ≠ ·) a ↔ b ∈ a :: l := by
  induction l generalizing a with
  | nil => rfl
  | cons c l ih =>
    by_cases h : a = c
    · subst h
      rw [List.destutter'_cons_neg _ (by simp), ih]
      simp
    · rw [List.destutter'_cons_pos _ h, List.mem_cons, ih, ← List.mem_cons]

/-! ## The loop over the end -/

variable {out : List α}

theorem dropClosing_of_clean (h : 1 < out.length → out.head? ≠ out.getLast?) :
    dropClosing out = out := by
  rw [dropClosing, if_neg]
  rintro ⟨hlen, he⟩
  exact h hlen he

omit [DecidableEq α] in
/-- A ring that ends where it begins, without its end. -/
theorem closed_cases (h : 1 < out.length ∧ out.head? = out.getLast?) :
    ∃ a mid, out = a :: mid ++ [a] ∧ out.dropLast = a :: mid := by
  obtain ⟨hlen, he⟩ := h
  match out, hlen, he with
  | a :: b :: l, _, he =>
    have hsplit := List.dropLast_append_getLast (l := a :: b :: l) (by simp)
    have hlast : (a :: b :: l).getLast (by simp) = a := by
      rw [List.getLast?_eq_some_getLast (by simp)] at he
      exact (Option.some.inj he).symm
    rw [hlast] at hsplit
    exact ⟨a, (b :: l).dropLast, hsplit.symm, rfl⟩

theorem strokes_closed (a : α) (mid : List α) :
    strokes (a :: mid ++ [a]) = strokes (a :: mid) := by
  have hend : ∀ (b : α) (l : List α), strokesAlong (b :: (l ++ [a, a])) =
      strokesAlong (b :: (l ++ [a])) := by
    intro b l
    induction l generalizing b with
    | nil =>
      rw [List.nil_append, List.nil_append, strokesAlong_cons b a, strokesAlong_cons b a,
        strokesAlong_cons a a]
      simp
    | cons c l ih =>
      rw [List.cons_append, List.cons_append, strokesAlong_cons b c, strokesAlong_cons b c, ih]
  simpa [strokes] using hend a mid

theorem dropClosing_spec (h : out.IsChain (· ≠ ·)) :
    Clean (dropClosing out) ∧ strokes (dropClosing out) = strokes out ∧
      ∀ b, b ∈ dropClosing out ↔ b ∈ out := by
  induction out using dropClosing.induct with
  | case1 out hclosed ih =>
    obtain ⟨a, mid, hout, hdrop⟩ := closed_cases hclosed
    rw [dropClosing, if_pos hclosed]
    have hchain : out.dropLast.IsChain (· ≠ ·) := h.dropLast
    obtain ⟨hclean, hstrokes, hmem⟩ := ih hchain
    refine ⟨hclean, ?_, fun b => ?_⟩
    · rw [hstrokes, hdrop, hout, strokes_closed]
    · rw [hmem, hdrop, hout]
      simp
      tauto
  | case2 out hopen =>
    rw [dropClosing, if_neg hopen]
    exact ⟨⟨h, fun hlen he => hopen ⟨hlen, he⟩⟩, rfl, fun _ => Iff.rfl⟩

/-! ## Both -/

theorem dedup_spec (outline : List α) :
    Clean (dedupOutline outline) ∧ strokes (dedupOutline outline) = strokes outline ∧
      ∀ b, b ∈ dedupOutline outline ↔ b ∈ outline := by
  cases outline with
  | nil => exact ⟨⟨List.isChain_nil, by simp [dedupOutline]⟩, rfl, fun _ => Iff.rfl⟩
  | cons a l =>
    rw [dedupOutline, if_neg (by simp), appendAll]
    obtain ⟨hclean, hstrokes, hmem⟩ := dropClosing_spec (List.isChain_destutter' _ l a)
    refine ⟨hclean, ?_, fun b => (hmem b).trans mem_destutter⟩
    obtain ⟨rest, hrest⟩ := destutter_head a l
    have hline := strokesAlong_destutter a l [a]
    rw [hstrokes, strokes, hrest]
    rw [hrest] at hline
    exact hline

/-- A clean ring is left alone. -/
theorem dedup_of_clean {ring : List α} (h : Clean ring) : dedupOutline ring = ring := by
  cases ring with
  | nil => rfl
  | cons a l =>
    rw [dedupOutline, if_neg (by simp), appendAll,
      List.destutter'_of_isChain_cons _ _ h.chain]
    exact dropClosing_of_clean h.wrap

/-! ## The curve -/

omit [DecidableEq α] in
/-- Every vertex begins an edge. -/
theorem edge_of_mem {ring : List α} {q : α} (h : q ∈ ring) :
    ∃ e ∈ (ring ++ ring.head?.toList).zip (ring ++ ring.head?.toList).tail, e.1 = q := by
  cases ring with
  | nil => exact absurd h (by simp)
  | cons a l =>
    have hline : ∀ (b : α) (l : List α), q ∈ b :: l →
        ∃ e ∈ (b :: (l ++ [a])).zip (l ++ [a]), e.1 = q := by
      intro b l hq
      induction l generalizing b with
      | nil =>
        obtain rfl : q = b := by simpa using hq
        exact ⟨(q, a), by simp, rfl⟩
      | cons c l ih =>
        rcases List.mem_cons.1 hq with rfl | hq
        · exact ⟨(q, c), by simp, rfl⟩
        · obtain ⟨e, he, heq⟩ := ih c hq
          exact ⟨e, List.mem_cons_of_mem _ he, heq⟩
    exact hline a l h

section Curve

open Segment

variable {K : Type} [Field K] [LinearOrder K] [IsStrictOrderedRing K]

/-- A point of an edge of the ring, from its first vertex back to it. -/
def OnCurve (ring : List (Point K)) (q : Point K) : Prop :=
  ∃ e ∈ (ring ++ ring.head?.toList).zip (ring ++ ring.head?.toList).tail, OnSegment e.1 e.2 q

theorem onSegment_point {a q : Point K} : OnSegment a a q ↔ q = a := by
  constructor
  · rintro ⟨t, -, -, rfl⟩
    exact along_of_point (by unfold sqDist; ring) t
  · rintro rfl
    exact onSegment_first q q

theorem onCurve_iff (ring : List (Point K)) (q : Point K) :
    OnCurve ring q ↔ (∃ e ∈ strokes ring, OnSegment e.1 e.2 q) ∨ q ∈ ring := by
  constructor
  · rintro ⟨e, he, hq⟩
    by_cases hlen : e.1 = e.2
    · right
      rw [← hlen, onSegment_point] at hq
      have hmem := (List.of_mem_zip he).1
      rw [← hq] at hmem
      rcases List.mem_append.1 hmem with hmem | hmem
      · exact hmem
      · exact List.mem_of_mem_head? (by simpa using hmem)
    · left
      refine ⟨e, List.mem_filter.2 ⟨he, ?_⟩, hq⟩
      simpa using hlen
  · rintro (⟨e, he, hq⟩ | hmem)
    · exact ⟨e, (List.mem_filter.1 he).1, hq⟩
    · obtain ⟨e, he, rfl⟩ := edge_of_mem hmem
      exact ⟨e, he, onSegment_first _ _⟩

/-- The importer takes exactly the simple outlines, and cleans an outline without moving its
    curve. -/
theorem import_outlines (points : List (Point K)) :
    (simpleImportOutline points = true ↔ SimpleOutline points) ∧ Clean (dedupOutline points) ∧
      strokes (dedupOutline points) = strokes points ∧
      (∀ q, OnCurve (dedupOutline points) q ↔ OnCurve points q) ∧
      dedupOutline (dedupOutline points) = dedupOutline points := by
  obtain ⟨hclean, hstrokes, hmem⟩ := dedup_spec points
  refine ⟨simple_iff points, hclean, hstrokes, fun q => ?_, dedup_of_clean hclean⟩
  rw [onCurve_iff, onCurve_iff, hstrokes, hmem]

theorem import_outlines_triangle :
    let points : List (Point ℚ) := [(0, 0), (0, 0), (1, 0), (0, 1), (0, 0)]
    (simpleImportOutline points = true ↔ SimpleOutline points) ∧ Clean (dedupOutline points) ∧
      strokes (dedupOutline points) = strokes points ∧
      (∀ q, OnCurve (dedupOutline points) q ↔ OnCurve points q) ∧
      dedupOutline (dedupOutline points) = dedupOutline points :=
  import_outlines _

end Curve

end Import
end Gui
end Mowgli
