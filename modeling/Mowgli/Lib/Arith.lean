import Mathlib.Data.Rat.Floor

/-!
# Arith — the operations of a floating-point format

Code over floats is written over the operations of a format, whatever they round to. What a
proof relies on of the format is a structure of laws beside it.

`exactArith` is rational numbers in place of the floats, for runs over numbers that any format holds
exactly. A distance is exact along the axes.
-/

namespace Mowgli

/-- The operations of one format. A comparison with a NaN is false. -/
structure Arith (A : Type) where
  /-- The number nearest to a literal. -/
  lit : ℚ → A
  add : A → A → A
  sub : A → A → A
  mul : A → A → A
  div : A → A → A
  fmod : A → A → A
  hypot : A → A → A
  abs : A → A
  ceil : A → A
  cos : A → A
  sin : A → A
  lt : A → A → Bool
  le : A → A → Bool
  eq : A → A → Bool
  isFinite : A → Bool

/-- What the code relies on of the order of one format. -/
structure Arith.Lawful {A : Type} (a : Arith A) : Prop where
  /-- Rounding is monotone. -/
  lit_le : ∀ p q : ℚ, p ≤ q → a.le (a.lit p) (a.lit q) = true
  lit_finite : ∀ q : ℚ, -1000 ≤ q → q ≤ 1000 → a.isFinite (a.lit q) = true
  le_of_not_lt : ∀ x y, a.isFinite x = true → a.isFinite y = true → a.lt x y = false →
    a.le y x = true
  not_lt_of_le : ∀ x y, a.le x y = true → a.lt y x = false

/-- A minus sign; no format rounds it. -/
def Arith.neg {A : Type} (a : Arith A) (x : A) : A := a.mul (a.lit (-1)) x

/-- `std::clamp`. -/
def Arith.clamp {A : Type} (a : Arith A) (x lo hi : A) : A :=
  if a.lt x lo then lo else if a.lt hi x then hi else x

/-- `std::min` and `std::max`. -/
def Arith.min {A : Type} (a : Arith A) (x y : A) : A := if a.lt y x then y else x
def Arith.max {A : Type} (a : Arith A) (x y : A) : A := if a.lt x y then y else x

theorem Arith.Lawful.clamp_le {A : Type} {a : Arith A} (h : a.Lawful) {x : A} {p q : ℚ}
    (hx : a.isFinite x = true) (hp : -1000 ≤ p) (hpq : p ≤ q) (hq : q ≤ 1000) :
    a.le (a.lit p) (a.clamp x (a.lit p) (a.lit q)) = true ∧
      a.le (a.clamp x (a.lit p) (a.lit q)) (a.lit q) = true := by
  have hpfin := h.lit_finite p hp (le_trans hpq hq)
  have hqfin := h.lit_finite q (le_trans hp hpq) hq
  unfold Arith.clamp
  cases hlow : a.lt x (a.lit p) with
  | true => exact ⟨h.lit_le p p (le_refl p), h.lit_le p q hpq⟩
  | false =>
    cases hhigh : a.lt (a.lit q) x with
    | true => exact ⟨h.lit_le p q hpq, h.lit_le q q (le_refl q)⟩
    | false =>
      exact ⟨h.le_of_not_lt x (a.lit p) hx hpfin hlow, h.le_of_not_lt (a.lit q) x hqfin hx hhigh⟩

theorem Arith.Lawful.clamp_eq {A : Type} {a : Arith A} (h : a.Lawful) {x lo hi : A}
    (hlo : a.le lo x = true) (hhi : a.le x hi = true) : a.clamp x lo hi = x := by
  unfold Arith.clamp
  rw [h.not_lt_of_le lo x hlo, h.not_lt_of_le x hi hhi]
  rfl

/-! ## A format that does not round -/

/-- The power series of the cosine, from `k = 1`, or of the sine over its argument, from
`k = 2`. -/
def series (k : Nat) (x : ℚ) : ℚ :=
  let r := (List.range 12).foldl (fun (r : ℚ × ℚ) i =>
    (r.1 + r.2, -r.2 * x * x / ((k + 2 * i) * (k + 2 * i + 1)))) (0, 1)
  r.1

def exactArith : Arith ℚ :=
  { lit := id
    add := (· + ·)
    sub := (· - ·)
    mul := (· * ·)
    div := (· / ·)
    fmod := fun x y => if 0 ≤ x then x - y * ⌊x / y⌋ else x + y * ⌊-x / y⌋
    hypot := fun x y => (if x < 0 then -x else x) + if y < 0 then -y else y
    abs := fun x => if x < 0 then -x else x
    ceil := fun x => ⌈x⌉
    cos := series 1
    sin := fun x => x * series 2 x
    lt := fun x y => decide (x < y)
    le := fun x y => decide (x ≤ y)
    eq := fun x y => decide (x = y)
    isFinite := fun _ => true }

theorem exactArith_lawful : exactArith.Lawful := by
  refine ⟨?_, ?_, ?_, ?_⟩
  · intro p q hpq
    exact decide_eq_true hpq
  · intro q _ _
    rfl
  · intro x y _ _ hlt
    exact decide_eq_true (not_lt.1 (of_decide_eq_false hlt))
  · intro x y hle
    exact decide_eq_false (not_lt.2 (of_decide_eq_true hle))

end Mowgli
