import Mathlib.Algebra.BigOperators.Fin
import Mathlib.Data.BitVec
import Mathlib.Algebra.Field.ZMod

/-!
# Crc — the remainder of a bit string

A register of `w` bits is fed one bit after the other and divided by a generator, whose leading
term is left out. The register is linear in what it is fed, so a change of the bits is seen
exactly when the register of the change alone is not zero.
-/

namespace Mowgli
namespace Crc

variable {w : Nat} (g : BitVec w)

/-- Times `x`, modulo the generator. -/
def shift (c : BitVec w) : BitVec w := if c.msb then (c <<< 1) ^^^ g else c <<< 1

/-- A bit comes in at the top. -/
def incoming (w : Nat) (b : Bool) : BitVec w := if b then BitVec.intMin w else 0#w

def feed (c : BitVec w) (bits : List Bool) : BitVec w :=
  bits.foldl (fun c b => shift g (c ^^^ incoming w b)) c

def xorBits (x y : List Bool) : List Bool := List.zipWith xor x y

/-! ## Linearity -/

theorem xor_xor_xor_comm (a b c d : BitVec w) : (a ^^^ b) ^^^ (c ^^^ d) = (a ^^^ c) ^^^ (b ^^^ d) := by
  rw [BitVec.xor_assoc, BitVec.xor_assoc, ← BitVec.xor_assoc b, BitVec.xor_comm b c,
    BitVec.xor_assoc c]

theorem shift_zero : shift g 0#w = 0#w := by
  unfold shift
  rw [BitVec.msb_zero, if_neg Bool.false_ne_true, BitVec.zero_shiftLeft]

theorem shift_xor (a b : BitVec w) : shift g (a ^^^ b) = shift g a ^^^ shift g b := by
  unfold shift
  rw [BitVec.msb_xor, BitVec.shiftLeft_xor_distrib]
  cases a.msb with
  | false =>
    cases b.msb with
    | false => rfl
    | true => exact BitVec.xor_assoc _ _ _
  | true =>
    cases b.msb with
    | false =>
      show a <<< 1 ^^^ b <<< 1 ^^^ g = a <<< 1 ^^^ g ^^^ b <<< 1
      rw [BitVec.xor_assoc, BitVec.xor_comm (b <<< 1), ← BitVec.xor_assoc]
    | true =>
      show a <<< 1 ^^^ b <<< 1 = a <<< 1 ^^^ g ^^^ (b <<< 1 ^^^ g)
      rw [xor_xor_xor_comm, BitVec.xor_self, BitVec.xor_zero]

theorem iterate_zero (n : Nat) : (shift g)^[n] 0#w = 0#w := by
  induction n with
  | zero => rfl
  | succ n ih => rw [Function.iterate_succ_apply, shift_zero, ih]

theorem iterate_xor (n : Nat) (a b : BitVec w) :
    (shift g)^[n] (a ^^^ b) = (shift g)^[n] a ^^^ (shift g)^[n] b := by
  induction n generalizing a b with
  | zero => rfl
  | succ n ih =>
    rw [Function.iterate_succ_apply, Function.iterate_succ_apply, Function.iterate_succ_apply,
      shift_xor, ih]

theorem incoming_xor (b d : Bool) : incoming w (xor b d) = incoming w b ^^^ incoming w d := by
  cases b with
  | false =>
    rw [Bool.false_xor]
    exact (BitVec.zero_xor).symm
  | true =>
    cases d with
    | false => exact (BitVec.xor_zero).symm
    | true => exact (BitVec.xor_self).symm

variable (c : BitVec w)

@[simp] theorem feed_nil : feed g c [] = c := rfl

theorem feed_cons (b : Bool) (bits : List Bool) :
    feed g c (b :: bits) = feed g (shift g (c ^^^ incoming w b)) bits := rfl

theorem feed_append (front back : List Bool) :
    feed g c (front ++ back) = feed g (feed g c front) back := List.foldl_append

/-- **The register is linear.** -/
theorem feed_xorBits (a c : BitVec w) {x y : List Bool} (h : x.length = y.length) :
    feed g (a ^^^ c) (xorBits x y) = feed g a x ^^^ feed g c y := by
  induction x generalizing a c y with
  | nil =>
    cases y with
    | nil => rfl
    | cons d y => cases h
  | cons b x ih =>
    cases y with
    | nil => cases h
    | cons d y =>
      show feed g (shift g ((a ^^^ c) ^^^ incoming w (xor b d))) (xorBits x y) = _
      rw [incoming_xor, xor_xor_xor_comm, shift_xor, ih _ _ (Nat.succ.inj h)]
      rfl

variable {bits : List Bool}

/-- What a change of the bits does to the register. -/
theorem feed_changed {e : List Bool} (h : bits.length = e.length) :
    feed g c (xorBits bits e) = feed g c bits ^^^ feed g 0#w e := by
  have hlinear := feed_xorBits g c 0#w h
  rwa [BitVec.xor_zero] at hlinear

theorem feed_replicate_false (n : Nat) : feed g c (List.replicate n false) = (shift g)^[n] c := by
  induction n generalizing c with
  | zero => rfl
  | succ n ih =>
    rw [List.replicate_succ, feed_cons, ih, Function.iterate_succ_apply]
    show (shift g)^[n] (shift g (c ^^^ 0#w)) = _
    rw [BitVec.xor_zero]

/-! ## A generator with a constant term -/

section Constant

variable {g} (hg : g.getLsbD 0 = true)
include hg

theorem eq_zero_of_shift {c : BitVec w} (h : shift g c = 0#w) : c = 0#w := by
  have hbit : ∀ i, (shift g c).getLsbD i = false := by
    intro i
    rw [h, BitVec.getLsbD_zero]
  have hw : 0 < w := by
    rcases Nat.eq_zero_or_pos w with rfl | hw
    · rw [BitVec.getLsbD_of_ge g 0 (Nat.le_refl 0)] at hg
      cases hg
    · exact hw
  unfold shift at hbit
  cases hmsb : c.msb with
  | true =>
    rw [hmsb, if_pos rfl] at hbit
    have h0 := hbit 0
    rw [BitVec.getLsbD_xor, BitVec.getLsbD_shiftLeft, hg] at h0
    simp at h0
  | false =>
    rw [hmsb, if_neg Bool.false_ne_true] at hbit
    refine BitVec.eq_of_getLsbD_eq fun i hi => ?_
    rw [BitVec.getLsbD_zero]
    by_cases hlast : i + 1 < w
    · have hnext := hbit (i + 1)
      rw [BitVec.getLsbD_shiftLeft] at hnext
      simpa [hlast] using hnext
    · rw [BitVec.msb_eq_getLsbD_last] at hmsb
      rwa [show i = w - 1 by omega]

theorem eq_zero_of_iterate {n : Nat} {c : BitVec w} (h : (shift g)^[n] c = 0#w) : c = 0#w := by
  induction n generalizing c with
  | zero => exact h
  | succ n ih =>
    rw [Function.iterate_succ_apply] at h
    exact eq_zero_of_shift hg (ih h)

theorem iterate_injective (n : Nat) : Function.Injective (shift g)^[n] := by
  intro a c h
  have hxor : (shift g)^[n] (a ^^^ c) = 0#w := by
    rw [iterate_xor, h, BitVec.xor_self]
  exact BitVec.xor_eq_zero_iff.1 (eq_zero_of_iterate hg hxor)

end Constant

/-! ## The bits as a word -/

/-- The bits from the top down. -/
def word (w : Nat) : List Bool → BitVec w
  | [] => 0#w
  | b :: bits => incoming w b ^^^ (word w bits >>> 1)

theorem getLsbD_incoming {b : Bool} {i : Nat} (h : i + 1 < w) : (incoming w b).getLsbD i = false := by
  cases b with
  | false => exact BitVec.getLsbD_zero
  | true =>
    show (BitVec.intMin w).getLsbD i = false
    rw [BitVec.getLsbD_intMin]
    simp
    omega

theorem getLsbD_word {i : Nat} (h : i + bits.length < w) : (word w bits).getLsbD i = false := by
  induction bits generalizing i with
  | nil => exact BitVec.getLsbD_zero
  | cons b bits ih =>
    rw [List.length_cons] at h
    rw [word, BitVec.getLsbD_xor, getLsbD_incoming (by omega), BitVec.getLsbD_ushiftRight,
      ih (by omega)]
    rfl

/-- What is below the top bit comes back up. -/
theorem shift_word (h : bits.length < w) : shift g (word w bits >>> 1) = word w bits := by
  have hmsb : (word w bits >>> 1).msb = false := by
    rw [BitVec.msb_eq_getLsbD_last, BitVec.getLsbD_ushiftRight]
    exact BitVec.getLsbD_of_ge _ _ (by omega)
  unfold shift
  rw [hmsb, if_neg Bool.false_ne_true]
  refine BitVec.eq_of_getLsbD_eq fun i hi => ?_
  rw [BitVec.getLsbD_shiftLeft, BitVec.getLsbD_ushiftRight]
  by_cases h0 : i = 0
  · have hlow : (word w bits).getLsbD 0 = false := getLsbD_word (by omega)
    rw [h0, hlow]
    simp
  · rw [show 1 + (i - 1) = i by omega]
    simp [hi, h0]

/-- Up to `w` bits can come in at once. -/
theorem feed_word (h : bits.length ≤ w) :
    feed g c bits = (shift g)^[bits.length] (c ^^^ word w bits) := by
  induction bits generalizing c with
  | nil =>
    show c = c ^^^ 0#w
    rw [BitVec.xor_zero]
  | cons b bits ih =>
    rw [List.length_cons] at h
    rw [feed_cons, ih _ (by omega), List.length_cons, Function.iterate_succ_apply, word,
      ← BitVec.xor_assoc, shift_xor g (c ^^^ incoming w b), shift_word g (by omega)]

theorem word_ne_zero (h : bits.length ≤ w) (hset : true ∈ bits) : word w bits ≠ 0#w := by
  induction bits with
  | nil => cases hset
  | cons b bits ih =>
    rw [List.length_cons] at h
    intro hzero
    cases b with
    | true =>
      have htop : (word w (true :: bits)).getLsbD (w - 1) = true := by
        rw [word, BitVec.getLsbD_xor, BitVec.getLsbD_ushiftRight]
        rw [BitVec.getLsbD_of_ge (word w bits) _ (by omega)]
        show ((BitVec.intMin w).getLsbD (w - 1) ^^ false) = true
        rw [BitVec.getLsbD_intMin]
        simp
        omega
      rw [hzero, BitVec.getLsbD_zero] at htop
      cases htop
    | false =>
      have hset : true ∈ bits := (List.mem_cons.1 hset).resolve_left (by decide)
      refine ih (by omega) hset ?_
      have hshift : word w bits >>> 1 = 0#w := by
        rw [word] at hzero
        rwa [show incoming w false = 0#w from rfl, BitVec.zero_xor] at hzero
      rw [← shift_word 0#w (show bits.length < w by omega), hshift, shift_zero]

/-! ## Errors that are seen -/

section Errors

variable {g} (hg : g.getLsbD 0 = true)
include hg

/-- **A burst no longer than the register.** -/
theorem feed_burst (h : bits.length ≤ w) (hset : true ∈ bits) (m k : Nat) :
    feed g 0#w (List.replicate m false ++ bits ++ List.replicate k false) ≠ 0#w := by
  intro hzero
  rw [feed_append, feed_append, feed_replicate_false, feed_replicate_false, iterate_zero,
    feed_word g _ h, BitVec.zero_xor] at hzero
  exact word_ne_zero h hset (eq_zero_of_iterate hg (eq_zero_of_iterate hg hzero))

/-- **Two bits that are no period apart.** -/
theorem feed_two {d : Nat} (hperiod : (shift g)^[d + 1] (BitVec.intMin w) ≠ BitVec.intMin w)
    (m k : Nat) :
    feed g 0#w (List.replicate m false ++
      (true :: (List.replicate d false ++ true :: List.replicate k false))) ≠ 0#w := by
  intro hzero
  rw [feed_append, feed_replicate_false, iterate_zero, feed_cons, feed_append,
    feed_replicate_false, feed_cons, feed_replicate_false, BitVec.zero_xor,
    ← Function.iterate_succ_apply] at hzero
  exact hperiod (BitVec.xor_eq_zero_iff.1
    (eq_zero_of_shift hg (eq_zero_of_iterate hg hzero)))

end Errors

/-! ## Parity -/

/-- The number of set bits, modulo 2. -/
def parity (c : BitVec w) : ZMod 2 := ∑ i : Fin w, if c.getLsbD i then 1 else 0

theorem indicator_xor (b d : Bool) :
    (if xor b d then (1 : ZMod 2) else 0) = (if b then 1 else 0) + if d then 1 else 0 := by
  revert b d
  decide

theorem parity_xor (a c : BitVec w) : parity (a ^^^ c) = parity a + parity c := by
  unfold parity
  rw [← Finset.sum_add_distrib]
  refine Finset.sum_congr rfl fun i _ => ?_
  rw [BitVec.getLsbD_xor]
  exact indicator_xor _ _

theorem parity_zero : parity (0#w) = 0 := by
  unfold parity
  refine Finset.sum_eq_zero fun i _ => ?_
  rw [BitVec.getLsbD_zero, if_neg Bool.false_ne_true]

theorem parity_shiftLeft : parity c = parity (c <<< 1) + if c.msb then 1 else 0 := by
  cases w with
  | zero =>
    rw [BitVec.msb_eq_getLsbD_last, BitVec.getLsbD_of_ge c _ (Nat.zero_le _)]
    rfl
  | succ w =>
    have hfirst : (c <<< 1).getLsbD 0 = false := by
      simp
    have hnext : ∀ i : Fin w, (c <<< 1).getLsbD (i + 1) = c.getLsbD i := by
      intro i
      have := i.isLt
      simp
    unfold parity
    rw [Fin.sum_univ_castSucc, Fin.sum_univ_succ, BitVec.msb_eq_getLsbD_last]
    simp only [Fin.val_zero, Fin.val_succ, hfirst, hnext, Fin.val_castSucc, Fin.val_last,
      Nat.add_sub_cancel, Bool.false_eq_true, if_false, zero_add]

theorem parity_intMin (hw : 0 < w) : parity (BitVec.intMin w) = 1 := by
  have hmsb : (BitVec.intMin w).msb = true := by
    rw [BitVec.msb_intMin]
    exact decide_eq_true hw
  have hshift : BitVec.intMin w <<< 1 = 0#w := by
    refine BitVec.eq_of_getLsbD_eq fun i hi => ?_
    rw [BitVec.getLsbD_shiftLeft, BitVec.getLsbD_intMin, BitVec.getLsbD_zero]
    simp
    omega
  rw [parity_shiftLeft, hmsb, hshift, parity_zero]
  rfl

/-- A generator with an even number of terms keeps the parity. -/
theorem parity_shift (hg : parity g = 1) (c : BitVec w) : parity (shift g c) = parity c := by
  rw [parity_shiftLeft c]
  unfold shift
  cases c.msb with
  | true => rw [if_pos rfl, if_pos rfl, parity_xor, hg]
  | false => rw [if_neg Bool.false_ne_true, if_neg Bool.false_ne_true, add_zero]

/-- **The register is as odd as what it was fed.** -/
theorem parity_feed (hw : 0 < w) (hg : parity g = 1) (c : BitVec w) (bits : List Bool) :
    parity (feed g c bits) = parity c + (bits.count true : ZMod 2) := by
  induction bits generalizing c with
  | nil =>
    rw [feed_nil, List.count_nil, Nat.cast_zero, add_zero]
  | cons b bits ih =>
    rw [feed_cons, ih, parity_shift g hg, parity_xor]
    cases b with
    | true =>
      rw [List.count_cons_self, Nat.cast_add, Nat.cast_one, add_assoc,
        show incoming w true = BitVec.intMin w from rfl, parity_intMin hw, add_comm (1 : ZMod 2)]
    | false =>
      rw [List.count_cons_of_ne Bool.false_ne_true, show incoming w false = 0#w from rfl,
        parity_zero, add_zero]

/-! ## The period -/

/-- A period that no prime can be taken out of is the least one. -/
theorem least_period {α : Type} {f : α → α} {x : α} {n d : Nat} (hn : f^[n] x = x)
    (hprime : ∀ p, p.Prime → p ∣ n → f^[n / p] x ≠ x) (hd : 0 < d) (hlt : d < n) :
    f^[d] x ≠ x := by
  intro h
  have hdvd : Function.minimalPeriod f x ∣ n := Function.IsPeriodicPt.minimalPeriod_dvd hn
  have hle : Function.minimalPeriod f x ≤ d := Function.IsPeriodicPt.minimalPeriod_le hd h
  obtain ⟨k, hk⟩ := hdvd
  have hk1 : k ≠ 1 := by
    rintro rfl
    omega
  obtain ⟨p, hp, q, rfl⟩ := Nat.exists_prime_and_dvd hk1
  have hdiv : n / p = Function.minimalPeriod f x * q := by
    rw [hk, Nat.mul_left_comm]
    exact Nat.mul_div_cancel_left _ hp.pos
  refine hprime p hp ⟨Function.minimalPeriod f x * q, by rw [hk, Nat.mul_left_comm]⟩ ?_
  rw [hdiv]
  exact (Function.isPeriodicPt_minimalPeriod f x).mul_const q

/-- The product with what the bits stand for. -/
def times (p : BitVec w) (bits : List Bool) : BitVec w :=
  bits.foldl (fun acc b => shift g acc ^^^ if b then p else 0#w) 0#w

/-- The bits of a word, from the top down. -/
def bitsOf (c : BitVec w) : List Bool := (List.range w).map fun i => c.getLsbD (w - 1 - i)

theorem times_iterate (m : Nat) (p : BitVec w) (bits : List Bool) :
    times g ((shift g)^[m] p) bits = (shift g)^[m] (times g p bits) := by
  have hfold : ∀ acc, bits.foldl (fun acc b => shift g acc ^^^
      if b then (shift g)^[m] p else 0#w) ((shift g)^[m] acc) =
      (shift g)^[m] (bits.foldl (fun acc b => shift g acc ^^^ if b then p else 0#w) acc) := by
    induction bits with
    | nil => exact fun acc => rfl
    | cons b bits ih =>
      intro acc
      rw [List.foldl_cons, List.foldl_cons, ← ih, iterate_xor,
        ← Function.iterate_succ_apply, Function.iterate_succ_apply']
      cases b with
      | true => rfl
      | false =>
        rw [if_neg Bool.false_ne_true, if_neg Bool.false_ne_true, iterate_zero]
  have h := hfold 0#w
  rwa [iterate_zero] at h

/-- Powers of `x` are multiplied. -/
theorem iterate_add {m n : Nat} {a c : BitVec w} (hm : (shift g)^[m] 1#w = a)
    (hn : (shift g)^[n] 1#w = c) (hc : times g 1#w (bitsOf c) = c) :
    (shift g)^[m + n] 1#w = times g a (bitsOf c) := by
  rw [Function.iterate_add_apply, hn, ← hm, times_iterate, hc]

end Crc
end Mowgli
