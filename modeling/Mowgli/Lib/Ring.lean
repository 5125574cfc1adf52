import Mathlib.Data.Nat.ModEq
import Mathlib.Data.List.Basic

/-!
# Ring — a ring of cells behind counters that never turn back

A position of the ring is a number that only grows, and its cell is the remainder. The
cells of up to `size` positions in a row are different cells, so what is written behind a
stretch of the ring leaves the stretch alone as long as both together are **no longer than
the ring** (`window_put_before`).

`put` is the write as code does it, in two copies of which the second starts at the first
cell; `slice` is the read of cells in a row, which are positions in a row up to the end of
the memory (`slice_eq_window`).
-/

namespace Mowgli
namespace Ring

variable {α : Type} {size : Nat}

/-- `n` cells in a row. -/
def slice (mem : Nat → α) (i n : Nat) : List α := (List.range n).map fun k => mem (i + k)

/-- The cells of `n` positions in a row. -/
def window (size : Nat) (mem : Nat → α) (p n : Nat) : List α :=
  (List.range n).map fun k => mem ((p + k) % size)

/-- `xs` is copied to the cells from `i` on. -/
def copy (mem : Nat → α) (i : Nat) (xs : List α) (c : Nat) : α :=
  if i ≤ c then (xs[c - i]?).getD (mem c) else mem c

/-- What of `xs` fits before the memory ends. -/
def firstPart (size p : Nat) (xs : List α) : List α := xs.take (size - p % size)

def secondPart (size p : Nat) (xs : List α) : List α := xs.drop (size - p % size)

/-- `xs` is written to the positions from `p` on. -/
def put (size : Nat) (mem : Nat → α) (p : Nat) (xs : List α) : Nat → α :=
  copy (copy mem (p % size) (firstPart size p xs)) 0 (secondPart size p xs)

/-! ## Positions -/

theorem mod_ne {a b : Nat} (h : a < b) (hb : b < a + size) : a % size ≠ b % size := by
  intro he
  have hdvd : size ∣ b - a := (Nat.modEq_iff_dvd' (Nat.le_of_lt h)).1 he
  have := Nat.le_of_dvd (by omega) hdvd
  omega

variable {p n : Nat} {xs : List α}

/-- A position not a whole ring behind `p` is found without a division. -/
theorem add_mod (hs : 0 < size) {k : Nat} (hk : k < size) :
    (p + k) % size = if p % size + k < size then p % size + k else p % size + k - size := by
  have hp : p % size < size := Nat.mod_lt p hs
  rw [Nat.add_mod, Nat.mod_eq_of_lt hk]
  split
  · exact Nat.mod_eq_of_lt ‹_›
  · rw [Nat.mod_eq_sub_mod (by omega)]
    exact Nat.mod_eq_of_lt (by omega)

/-! ## Windows -/

variable (mem : Nat → α)

@[simp] theorem length_window (p n : Nat) : (window size mem p n).length = n := by
  simp [window]

theorem window_add (p n m : Nat) :
    window size mem p (n + m) = window size mem p n ++ window size mem (p + n) m := by
  simp [window, List.range_add, Nat.add_assoc, Function.comp_def]

theorem window_take (p : Nat) {m : Nat} (h : m ≤ n) :
    (window size mem p n).take m = window size mem p m := by
  obtain ⟨r, rfl⟩ := Nat.exists_eq_add_of_le h
  rw [window_add, List.take_append_of_le_length (by simp), List.take_of_length_le (by simp)]

theorem window_drop (p : Nat) {m : Nat} (h : m ≤ n) :
    (window size mem p n).drop m = window size mem (p + m) (n - m) := by
  obtain ⟨r, rfl⟩ := Nat.exists_eq_add_of_le h
  rw [window_add, List.drop_append_of_le_length (by simp), List.drop_of_length_le (by simp)]
  simp

/-- Cells in a row are positions in a row. -/
theorem slice_eq_window (h : p % size + n ≤ size) :
    slice mem (p % size) n = window size mem p n := by
  refine List.map_congr_left fun k hk => ?_
  have hk' : k < n := List.mem_range.1 hk
  have hs : 0 < size := by omega
  rw [add_mod hs (by omega), if_pos (by omega)]

/-! ## Writes -/

theorem copy_inside {i k : Nat} (h : k < xs.length) : copy mem i xs (i + k) = xs[k] := by
  simp [copy, h]

theorem copy_outside {i c : Nat} (h : c < i ∨ i + xs.length ≤ c) : copy mem i xs c = mem c := by
  unfold copy
  split
  · rw [List.getElem?_eq_none (by omega)]
    rfl
  · rfl

theorem length_firstPart (size p : Nat) (xs : List α) :
    (firstPart size p xs).length = min (size - p % size) xs.length := by
  simp [firstPart]

theorem length_secondPart (size p : Nat) (xs : List α) :
    (secondPart size p xs).length = xs.length - (size - p % size) := by
  simp [secondPart]

theorem put_written (hs : 0 < size) (mem : Nat → α) (p : Nat) (hx : xs.length ≤ size) {k : Nat}
    (hk : k < xs.length) : put size mem p xs ((p + k) % size) = xs[k] := by
  have hp : p % size < size := Nat.mod_lt p hs
  have hfirst := length_firstPart size p xs
  have hsecond := length_secondPart size p xs
  rw [add_mod hs (by omega)]
  unfold put
  by_cases hwrap : p % size + k < size
  · rw [if_pos hwrap, copy_outside _ (by omega), copy_inside _ (by omega)]
    simp [firstPart]
  · rw [if_neg hwrap]
    have hcell : p % size + k - size = 0 + (k - (size - p % size)) := by omega
    rw [hcell, copy_inside _ (by omega)]
    simp only [secondPart, List.getElem_drop]
    congr 1
    omega

theorem put_other (hs : 0 < size) (mem : Nat → α) (p : Nat) (hx : xs.length ≤ size) {c : Nat}
    (hc : c < size) (h : ∀ k < xs.length, (p + k) % size ≠ c) : put size mem p xs c = mem c := by
  have hp : p % size < size := Nat.mod_lt p hs
  have hfirst := length_firstPart size p xs
  have hsecond := length_secondPart size p xs
  have hnot1 : c < p % size ∨ p % size + (firstPart size p xs).length ≤ c := by
    by_contra hin
    refine h (c - p % size) (by omega) ?_
    rw [add_mod hs (by omega), if_pos (by omega)]
    omega
  have hnot2 : c < 0 ∨ 0 + (secondPart size p xs).length ≤ c := by
    by_contra hin
    refine h (c + (size - p % size)) (by omega) ?_
    rw [add_mod hs (by omega), if_neg (by omega)]
    omega
  unfold put
  rw [copy_outside _ hnot2, copy_outside _ hnot1]

/-- A write depends on the cell of its position only. -/
theorem put_congr {q : Nat} (h : p % size = q % size) (xs : List α) :
    put size mem p xs = put size mem q xs := by
  unfold put firstPart secondPart
  rw [h]

/-- What is written is there. -/
theorem window_put (hs : 0 < size) (mem : Nat → α) (p : Nat) (hx : xs.length ≤ size) :
    window size (put size mem p xs) p xs.length = xs := by
  refine List.ext_getElem (by simp) fun k h₁ h₂ => ?_
  simp only [window, List.getElem_map, List.getElem_range]
  exact put_written hs mem p hx h₂

/-- **What stands before it is left alone.** -/
theorem window_put_before (hs : 0 < size) (mem : Nat → α) {t : Nat} (hp : t + n ≤ p)
    (hx : p + xs.length ≤ t + size) :
    window size (put size mem p xs) t n = window size mem t n := by
  refine List.map_congr_left fun j hj => ?_
  have hj' : j < n := List.mem_range.1 hj
  refine put_other hs mem p (by omega) (Nat.mod_lt _ hs) fun k hk => ?_
  exact (mod_ne (by omega) (by omega)).symm

/-- A stretch, and what is written behind it. -/
theorem window_put_append (hs : 0 < size) (mem : Nat → α) {t : Nat} (hx : n + xs.length ≤ size) :
    window size (put size mem (t + n) xs) t (n + xs.length) = window size mem t n ++ xs := by
  rw [window_add, window_put_before hs mem (Nat.le_refl _) (by omega),
    window_put hs mem _ (by omega)]

/-! ## One cell -/

/-- A window begins at the cell of its position. -/
theorem window_mod (p n : Nat) : window size mem (p % size) n = window size mem p n := by
  simp [window]

theorem window_succ (p n : Nat) :
    window size mem p (n + 1) = mem (p % size) :: window size mem (p + 1) n := by
  rw [Nat.add_comm, window_add]
  simp [window]

/-- A cell that no position of the window has. -/
theorem window_update {c : Nat} (h : ∀ k < n, (p + k) % size ≠ c) (x : α) :
    window size (Function.update mem c x) p n = window size mem p n := by
  refine List.map_congr_left fun k hk => ?_
  exact Function.update_of_ne (h k (List.mem_range.1 hk)) x mem

/-- The cell behind a window that is not the whole ring. -/
theorem window_push (h : n < size) (x : α) :
    window size (Function.update mem ((p + n) % size) x) p (n + 1) = window size mem p n ++ [x] := by
  rw [window_add, window_update mem fun k hk => mod_ne (by omega) (by omega)]
  simp [window]

/-- The first cell of a window, once it has been read. -/
theorem window_pop (h : n < size) (x : α) :
    window size (Function.update mem (p % size) x) (p + 1) n = window size mem (p + 1) n := by
  refine window_update mem (fun k hk => ?_) x
  exact (mod_ne (by omega) (by omega)).symm

/-! ## The two copies -/

/-- Both copies stay within the memory. -/
theorem copies_inside (hs : 0 < size) (p : Nat) (xs : List α) (hx : xs.length ≤ size) :
    p % size + (firstPart size p xs).length ≤ size ∧ (secondPart size p xs).length ≤ size := by
  have hp : p % size < size := Nat.mod_lt p hs
  rw [length_firstPart, length_secondPart]
  omega

/-- `n` cells in a row from `t` on, which the `q` positions from `t` on include, are written by
    neither copy of what is put behind these. -/
theorem copies_clear (hs : 0 < size) {t q : Nat} (hx : q + xs.length ≤ size) (hn : n ≤ q)
    (hrow : t % size + n ≤ size) :
    ((t + q) % size + (firstPart size (t + q) xs).length ≤ t % size ∨
        t % size + n ≤ (t + q) % size) ∧
      (secondPart size (t + q) xs).length ≤ t % size := by
  have ht : t % size < size := Nat.mod_lt t hs
  rw [length_firstPart, length_secondPart]
  by_cases hfull : q < size
  · rw [add_mod hs hfull]
    split
    · constructor
      · right; omega
      · omega
    · constructor
      · left; omega
      · omega
  · obtain rfl : q = size := by omega
    rw [Nat.add_mod_right]
    constructor
    · left; omega
    · omega

end Ring
end Mowgli
